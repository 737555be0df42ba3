import Quarry.Proofs.Outcome
import Quarry.Proofs.Value.Steady

/-!
# What an object takes from a row

An object only depends on the cells of its own columns: another row with the same cells gives the
same object. It has a field for each key whose column the row has, and no other, in the order of the
keys. The other way, an object gives a row what it has under a key or, failing that, under the
column of the key.
-/

set_option autoImplicit false

namespace Quarry

open Text.Name (toSnake)

/-- What is not NULL is said to be so. -/
theorem Value.isNull_eq_false_iff {v : Value} : v.isNull = false ↔ v ≠ .null := by
  cases v <;> simp [isNull]

namespace Codec

/-- A value stands under its key, or else under its column. -/
theorem valueOf_record (fields : Record) (key column : String) :
    valueOf (.record fields) key column =
      .ok (if (Record.getD key fields).isUnset then
        (if key = column then .unset else Record.getD column fields) else Record.getD key fields) := by
  unfold valueOf
  dsimp only
  cases Record.getD key fields <;> rfl

variable [Limits] {c : Codec} {keys : List String} {row : Record} {object : Record}

/-- How the first key is read. -/
theorem decodeKeys_cons (c : Codec) (row : Value) (start key : String) (keys : List String) :
    c.decodeKeys row start (key :: keys) = (do
      match ← cell row (start ++ toSnake key) with
      | none => c.decodeKeys row start keys
      | some v =>
        let w ← c.decode (toSnake key) v
        return (key, w) :: (← c.decodeKeys row start keys)) := rfl

/-- Rows with the same cells are decoded to the same object. -/
theorem decodeKeys_congr {row row' : Value} {start start' : String}
    (h : ∀ key ∈ keys, cell row (start ++ toSnake key) = cell row' (start' ++ toSnake key)) :
    c.decodeKeys row start keys = c.decodeKeys row' start' keys := by
  induction keys with
  | nil => rfl
  | cons key rest ih =>
    obtain ⟨hkey, hrest⟩ := List.forall_mem_cons.mp h
    simp only [decodeKeys_cons, hkey, ih hrest]

/-- An object does not depend on further columns behind those of its row. -/
theorem toObject_append {tail : Record} (hcolumns : ∀ column ∈ c.columnNames, column ∉ Record.names tail) :
    c.toObject (.record (row ++ tail)) "" = c.toObject (.record row) "" := by
  refine decodeKeys_congr fun key hkey => ?_
  have hcolumn := Record.get?_eq_none (hcolumns _ (List.mem_map_of_mem hkey))
  simp [cell, Record.get?_append, hcolumn]

/-- What the first key adds to an object. -/
theorem of_decodeKeys_cons_eq_ok {row : Value} {start key : String}
    (h : c.decodeKeys row start (key :: keys) = .ok object) :
    ∃ held rest, cell row (start ++ toSnake key) = .ok held ∧ c.decodeKeys row start keys = .ok rest ∧
      (held = none ∧ object = rest ∨
        ∃ v w, held = some v ∧ c.decode (toSnake key) v = .ok w ∧ object = (key, w) :: rest) := by
  rw [decodeKeys_cons] at h
  obtain ⟨held, hheld, h⟩ := bind_eq_ok.mp h
  cases held with
  | none => exact ⟨none, object, hheld, h, .inl ⟨rfl, rfl⟩⟩
  | some v =>
    obtain ⟨w, hw, h⟩ := bind_eq_ok.mp h
    obtain ⟨rest, hrest, h⟩ := bind_eq_ok.mp h
    exact ⟨some v, rest, hheld, hrest, .inr ⟨v, w, rfl, hw, (pure_eq_ok.mp h).symm⟩⟩

/-- What the first key adds to the object of a row. -/
theorem of_decodeKeys_cons {key : String}
    (h : c.decodeKeys (.record row) "" (key :: keys) = .ok object) :
    ∃ rest, c.decodeKeys (.record row) "" keys = .ok rest ∧
      (Record.get? (toSnake key) row = none ∧ object = rest ∨
        ∃ v w, Record.get? (toSnake key) row = some v ∧ c.decode (toSnake key) v = .ok w ∧
          object = (key, w) :: rest) := by
  obtain ⟨held, rest, hheld, hrest, hfirst⟩ := of_decodeKeys_cons_eq_ok h
  obtain rfl : Record.get? (toSnake key) row = held := by simpa [cell] using hheld
  exact ⟨rest, hrest, hfirst⟩

/-- The names of an object are some of the keys, in their order. -/
theorem names_of_decodeKeys {row : Value} {start : String} (h : c.decodeKeys row start keys = .ok object) :
    (Record.names object).Sublist keys := by
  induction keys generalizing object with
  | nil =>
    obtain rfl := Except.ok.inj h
    exact List.Sublist.slnil
  | cons key keys ih =>
    obtain ⟨_, rest, -, hrest, ⟨-, rfl⟩ | ⟨v, w, -, -, rfl⟩⟩ := of_decodeKeys_cons_eq_ok h
    · exact (ih hrest).cons key
    · exact (ih hrest).cons_cons key

/-- An object can be read if each of its cells can. -/
theorem exists_decodeKeys {start : String} (h : ∀ key ∈ keys, ∀ v,
      Record.get? (start ++ toSnake key) row = some v → ∃ w, c.decode (toSnake key) v = .ok w) :
    ∃ object, c.decodeKeys (.record row) start keys = .ok object := by
  induction keys with
  | nil => exact ⟨[], rfl⟩
  | cons key rest ih =>
    obtain ⟨hkey, hrest⟩ := List.forall_mem_cons.mp h
    obtain ⟨object, hobject⟩ := ih hrest
    have hcell : cell (.record row) (start ++ toSnake key) =
        .ok (Record.get? (start ++ toSnake key) row) := rfl
    apply exists_bind_eq_ok hcell
    cases hget : Record.get? (start ++ toSnake key) row with
    | none => exact ⟨object, hobject⟩
    | some v =>
      obtain ⟨w, hw⟩ := hkey v hget
      exact exists_bind_eq_ok hw (exists_bind_eq_ok hobject ⟨_, rfl⟩)

/-- Each field of an object is read from a cell. -/
theorem cell_of_mem_decodeKeys {row : Value} {start : String} {f : String × Value}
    (h : c.decodeKeys row start keys = .ok object) (hf : f ∈ object) :
    ∃ v, cell row (start ++ toSnake f.1) = .ok (some v) ∧ c.decode (toSnake f.1) v = .ok f.2 := by
  induction keys generalizing object with
  | nil =>
    obtain rfl := Except.ok.inj h
    simp at hf
  | cons key keys ih =>
    obtain ⟨held, rest, hheld, hrest, ⟨-, rfl⟩ | ⟨v, w, rfl, hw, rfl⟩⟩ := of_decodeKeys_cons_eq_ok h
    · exact ih hrest hf
    · obtain rfl | hf := List.mem_cons.mp hf
      · exact ⟨v, hheld, hw⟩
      · exact ih hrest hf

/-- What an object has was decoded from the row. -/
theorem decoded_of_mem {f : String × Value} (h : c.decodeKeys (.record row) "" keys = .ok object)
    (hf : f ∈ object) :
    ∃ v, (toSnake f.1, v) ∈ row ∧ c.decode (toSnake f.1) v = .ok f.2 := by
  obtain ⟨v, hcell, hv⟩ := cell_of_mem_decodeKeys h hf
  have hget : Record.get? (toSnake f.1) row = some v := by simpa [cell] using hcell
  exact ⟨v, Record.mem_of_get? hget, hv⟩

/-- Each cell that is filled gives a field. -/
theorem mem_of_cell {row : Value} {start key : String} {v : Value}
    (h : c.decodeKeys row start keys = .ok object) (hkey : key ∈ keys)
    (hv : cell row (start ++ toSnake key) = .ok (some v)) :
    ∃ w, (key, w) ∈ object ∧ c.decode (toSnake key) v = .ok w := by
  induction keys generalizing object with
  | nil => simp at hkey
  | cons first keys ih =>
    obtain ⟨held, rest, hheld, hrest, hfirst⟩ := of_decodeKeys_cons_eq_ok h
    obtain rfl | hkey := List.mem_cons.mp hkey
    · obtain rfl := Except.ok.inj (hheld.symm.trans hv)
      obtain ⟨hnone, -⟩ | ⟨v', w, hsome, hw, rfl⟩ := hfirst
      · exact nomatch hnone
      · obtain rfl := Option.some.inj hsome
        exact ⟨w, List.mem_cons_self, hw⟩
    · obtain ⟨w, hmem, hw⟩ := ih hrest hkey
      refine ⟨w, ?_, hw⟩
      obtain ⟨-, rfl⟩ | ⟨_, _, -, -, rfl⟩ := hfirst
      · exact hmem
      · exact List.mem_cons_of_mem _ hmem

/-- What the row has is decoded into the object. -/
theorem mem_of_decoded {key : String} {v : Value}
    (h : c.decodeKeys (.record row) "" keys = .ok object) (hkey : key ∈ keys)
    (hv : Record.get? (toSnake key) row = some v) :
    ∃ w, (key, w) ∈ object ∧ c.decode (toSnake key) v = .ok w :=
  mem_of_cell h hkey (by simpa [cell] using hv)

/-- Where no kinds are declared, the object of a row has a value other than NULL if the row has one
in a column of the object. -/
theorem exists_not_null {name : String} (hkinds : c.kinds = [])
    (h : c.toObject (.record row) "" = .ok object) (hname : name ∈ c.columnNames) {v : Value}
    (hv : Record.get? name row = some v) (hnull : v.isNull = false) :
    ∃ f ∈ object, f.2.isNull = false := by
  obtain ⟨key, hkey, rfl⟩ := List.mem_map.mp hname
  obtain ⟨w, hmem, hw⟩ := mem_of_decoded h hkey hv
  have hdecoded := decode_spec hkinds hw (Value.isNull_eq_false_iff.mp hnull)
  exact ⟨(key, w), hmem, Value.isNull_eq_false_iff.mpr hdecoded.1⟩

/-- Where no kinds are declared, values that are read from steady ones are steady. -/
theorem isSteady_of_decode {column : String} {v w : Value} (hkinds : c.kinds = [])
    (hv : v.isSteady = true) (h : c.decode column v = .ok w) : w.isSteady = true := by
  by_cases hnull : v = .null
  · rw [hnull, decode_null] at h
    rw [← Except.ok.inj h]
    rfl
  · exact (decode_spec hkinds h hnull).2 hv

/-- Where no kinds are declared, the object of a steady row is steady. -/
theorem isSteady_toObject (hkinds : c.kinds = []) (hkeys : c.keys.Nodup)
    (hrow : ∀ f ∈ row, f.2.isSteady = true) (h : c.toObject (.record row) "" = .ok object) :
    (Value.record object).isSteady = true := by
  refine Value.isSteady_record_iff.mpr ⟨hkeys.sublist (names_of_decodeKeys h), fun f hf => ?_⟩
  obtain ⟨v, hmem, hv⟩ := decoded_of_mem h hf
  exact isSteady_of_decode hkinds (hrow _ hmem) hv

end Codec

end Quarry
