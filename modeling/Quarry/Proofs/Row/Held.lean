import Quarry.Proofs.Row.RoundTrip

/-!
# What a row holds in a column

A full row has a value for every column. Where several keys have one column, the last of them
decides, as each one overwrites what those before it have left there (`Codec.keyOf?`). A column is
left unset for the database alone: every other value that is stored has a form.
-/

set_option autoImplicit false

namespace Quarry.Codec

open Text.Name (toSnake)

variable {c : Codec} {object v : Value} {skipAuto : Bool} {row : Record} {key column : String}

/-- The last of some keys that have a column. -/
def lastKey? (column : String) (keys : List String) : Option String :=
  keys.reverse.find? fun key => toSnake key == column

/-- The key that a column is read for. -/
def keyOf? (c : Codec) (column : String) : Option String := lastKey? column c.keys

/-- The last key of a column is among the others, or else the first. -/
theorem lastKey?_cons (column key : String) (keys : List String) :
    lastKey? column (key :: keys) =
      (lastKey? column keys).or (if toSnake key = column then some key else none) := by
  by_cases hkey : toSnake key = column <;> simp [lastKey?, List.find?_append, hkey]

/-- A column of the table has a key. -/
theorem exists_keyOf? (hcolumn : column ∈ c.columnNames) : ∃ key, c.keyOf? column = some key := by
  obtain ⟨key, hkey, rfl⟩ := List.mem_map.mp hcolumn
  refine Option.isSome_iff_exists.mp (List.find?_isSome.mpr ⟨key, List.mem_reverse.mpr hkey, ?_⟩)
  simp

/-- A full row has a value for each key. -/
theorem exists_encodeKey {x : Option Value}
    (h : c.encodeKey skipAuto false object key column = .ok x) : ∃ w, x = some w := by
  simp only [encodeKey, Bool.false_eq_true, if_false] at h
  cases hskip : skipAuto && c.isAutoSet column with
  | true =>
    rw [if_pos hskip] at h
    exact ⟨.unset, (pure_eq_ok.mp h).symm⟩
  | false =>
    rw [if_neg (by simp [hskip])] at h
    obtain ⟨v, -, hv⟩ := bind_eq_ok.mp h
    cases v with
    | unset =>
      dsimp only at hv
      split_ifs at hv
      · exact ⟨.unset, (pure_eq_ok.mp hv).symm⟩
      · obtain ⟨w, -, hw⟩ := bind_eq_ok.mp hv
        exact ⟨w, (pure_eq_ok.mp hw).symm⟩
    | _ =>
      obtain ⟨w, -, hw⟩ := bind_eq_ok.mp hv
      exact ⟨w, (pure_eq_ok.mp hw).symm⟩

/-- What has been stored under a column after some keys is what the last of those with that column
has stored there, and what was there before if none has it. -/
theorem get?_encodeKeys (column : String) {keys : List String} {out : Record}
    (h : c.encodeKeys skipAuto false object row keys = .ok out) :
    match lastKey? column keys with
    | none => Record.get? column out = Record.get? column row
    | some key => ∃ w, c.encodeKey skipAuto false object key column = .ok (some w) ∧
        Record.get? column out = some w := by
  induction keys generalizing row with
  | nil =>
    obtain rfl := Except.ok.inj h
    rfl
  | cons key rest ih =>
    obtain ⟨x, hx, hrest⟩ := bind_eq_ok.mp h
    obtain ⟨w, rfl⟩ := exists_encodeKey hx
    have hlater := ih hrest
    rw [lastKey?_cons]
    cases hlast : lastKey? column rest with
    | some other =>
      rw [hlast] at hlater
      exact hlater
    | none =>
      rw [hlast] at hlater
      dsimp only at hlater
      by_cases hcolumn : toSnake key = column
      · rw [hcolumn, Record.get?_set_self] at hlater
        rw [if_pos hcolumn]
        exact ⟨w, hcolumn ▸ hx, hlater⟩
      · rw [Record.get?_set_of_ne (Ne.symm hcolumn)] at hlater
        rw [if_neg hcolumn]
        exact hlater

/-- A full row holds in a column what the last key with that column stores there. -/
theorem get?_toRow (h : c.toRow object skipAuto false = .ok row) (hkey : c.keyOf? column = some key) :
    ∃ w, c.encodeKey skipAuto false object key column = .ok (some w) ∧
      Record.get? column row = some w := by
  have hheld := get?_encodeKeys column h
  rw [show lastKey? column c.keys = some key from hkey] at hheld
  exact hheld

/-- With the columns that the database assigns passed over, these and no others are left unset. -/
theorem isUnset_encodeKey {w : Value} (h : c.encodeKey true false object key column = .ok (some w)) :
    w.isUnset = c.isAutoSet column := by
  have hgiven {v : Value} (hv : v ≠ .unset) : v.isUnset = false := by
    cases v <;> first | exact absurd rfl hv | rfl
  unfold encodeKey at h
  cases hauto : c.isAutoSet column with
  | true =>
    rw [hauto] at h
    obtain rfl := Option.some.inj (pure_eq_ok.mp h)
    rfl
  | false =>
    simp only [hauto, Bool.and_false, Bool.false_eq_true, if_false] at h
    obtain ⟨v, -, hv⟩ := bind_eq_ok.mp h
    cases v with
    | unset =>
      obtain ⟨u, hu, hw⟩ := bind_eq_ok.mp hv
      obtain rfl := Option.some.inj (pure_eq_ok.mp hw)
      exact hgiven (encode_ne_unset hu nofun)
    | _ =>
      obtain ⟨u, hu, hw⟩ := bind_eq_ok.mp hv
      obtain rfl := Option.some.inj (pure_eq_ok.mp hw)
      exact hgiven (encode_ne_unset hu nofun)

/-- After encoding, exactly the columns that are set by themselves are absent. -/
theorem isUnset_toRow (h : c.toRow object true false = .ok row) (hcolumn : column ∈ c.columnNames) :
    (Record.getD column row).isUnset = c.isAutoSet column := by
  obtain ⟨key, hkey⟩ := exists_keyOf? hcolumn
  obtain ⟨w, hw, hget⟩ := get?_toRow h hkey
  rw [Record.getD, hget]
  exact isUnset_encodeKey hw

end Quarry.Codec
