import Mathlib.Tactic.Choose
import Quarry.Proofs.Row.Object
import Quarry.Proofs.Row.Rewriting
import Quarry.Proofs.Text.Snake

/-!
# Objects stored and restored

An object whose values are of the kinds of their columns is the same after it was stored in a row
and read from it. Its fields may have the names of keys or of columns: since a column name is its
own column name, no key can be the column of another key when the columns are distinct. Records and
lists are stored as JSON text, so they must not be too deep to be written; of an object in which one
is, there is no row.
-/

set_option autoImplicit false

namespace Quarry

open Text.Name (toSnake)

/-! ## Depth -/

namespace Value

mutual

/-- How many containers stand inside of each other in a value. -/
def depth : Value → Nat
  | .list items => itemsDepth items + 1
  | .tuple items => itemsDepth items + 1
  | .set items => itemsDepth items + 1
  | .record fields => fieldsDepth fields + 1
  | _ => 0

/-- How many containers stand inside of each other in items. -/
def itemsDepth : List Value → Nat
  | [] => 0
  | v :: vs => max (depth v) (itemsDepth vs)

/-- How many containers stand inside of each other in the values of fields. -/
def fieldsDepth : List (String × Value) → Nat
  | [] => 0
  | (_, v) :: rest => max (depth v) (fieldsDepth rest)

end

/-- Items are no deeper than there is room if each of them is so. -/
theorem itemsDepth_le_iff {vs : List Value} {room : Nat} :
    itemsDepth vs ≤ room ↔ ∀ v ∈ vs, v.depth ≤ room := by
  induction vs with
  | nil => simp [itemsDepth]
  | cons v vs ih => simp [itemsDepth, ih]

/-- Fields are no deeper than there is room if each value is so. -/
theorem fieldsDepth_le_iff {fs : List (String × Value)} {room : Nat} :
    fieldsDepth fs ≤ room ↔ ∀ f ∈ fs, f.2.depth ≤ room := by
  induction fs with
  | nil => simp [fieldsDepth]
  | cons f fs ih =>
    obtain ⟨k, v⟩ := f
    rw [fieldsDepth, Nat.max_le, ih, List.forall_mem_cons]

end Value

/-- There is room for a plain value if it is not deeper than that. -/
theorem Json.Plain.iff_depth {depth : Nat} {j : Json String} (h : Json.Plain depth j) (room : Nat) :
    Json.Plain room j ↔ j.toValue.depth ≤ room := by
  induction h generalizing room with
  | null => exact iff_of_true .null (Nat.zero_le _)
  | bool b => exact iff_of_true (.bool b) (Nat.zero_le _)
  | int hshort => exact iff_of_true (.int hshort) (Nat.zero_le _)
  | text t => exact iff_of_true (.text t) (Nat.zero_le _)
  | @array _ items _ ih =>
    have hitems (room : Nat) :
        (∀ v ∈ items, Json.Plain room v) ↔ Value.itemsDepth (Json.toValues items) ≤ room := by
      rw [Value.itemsDepth_le_iff, Json.toValues_eq_map, List.forall_mem_map]
      exact forall₂_congr fun v hv => ih v hv room
    rw [Json.plain_array_iff, Json.toValue, Value.depth]
    simp only [hitems]
    constructor
    · rintro ⟨inner, rfl, hle⟩
      exact Nat.succ_le_succ hle
    · intro hle
      exact ⟨room - 1, by omega, by omega⟩
  | @object _ fields hnames _ ih =>
    have hfields (room : Nat) :
        (∀ f ∈ fields, Json.Plain room f.2) ↔ Value.fieldsDepth (Json.toFields fields) ≤ room := by
      rw [Value.fieldsDepth_le_iff, Json.toFields_eq_map, List.forall_mem_map]
      exact forall₂_congr fun f hf => ih f hf room
    rw [Json.plain_object_iff hnames, Json.toValue, Value.depth]
    simp only [hfields]
    constructor
    · rintro ⟨inner, rfl, hle⟩
      exact Nat.succ_le_succ hle
    · intro hle
      exact ⟨room - 1, by omega, by omega⟩

/-! ## Values for columns -/

/-- The values that a column of a kind is meant for. -/
inductive Canonical [Limits] : Option Kind → Value → Prop
  | flag (b : Bool) : Canonical (some .boolean) (.bool b)
  | noMoment : Canonical (some .date) .null
  | moment {m : Time.Moment} (hvalid : m.isValid = true) (hutc : m.offset = some 0)
    (hmicro : m.micro = 0) (hfour : 1000 ≤ m.date.year) : Canonical (some .date) (.moment m)
  | json {j : Json String} {depth : Nat} (hplain : Json.Plain depth j) (htext : ∀ t, j ≠ .text t) :
    Canonical (some .json) j.toValue
  | given {v : Value} (hgiven : v ≠ .unset) : Canonical (some .text) v
  | nothing : Canonical none .null
  | int (n : Int) : Canonical none (.int n)
  | text {s : String} (hsame : Value.readJson s = .ok (.text s)) : Canonical none (.text s)
  | container {j : Json String} {depth : Nat} (hplain : Json.Plain depth j)
    (hcontainer : j.isContainer = true) : Canonical none j.toValue

/-- Whether a value for a column of a kind is not too deep to be written, where it is written as
JSON text. -/
def Fits [Limits] (kind : Option Kind) (v : Value) : Prop := kind ≠ some .text → v.depth ≤ Limits.depth

/-- A canonical value is not absent. -/
theorem Canonical.ne_unset [Limits] {kind : Option Kind} {v : Value} (h : Canonical kind v) : v ≠ .unset := by
  cases h with
  | json _ _ => exact Json.toValue_ne_unset _
  | container _ _ => exact Json.toValue_ne_unset _
  | given hgiven => exact hgiven
  | _ => exact nofun

namespace Codec

variable {c : Codec} {column key : String} {v : Value} {keys : List String}

/-! ## Rows -/

/-- A text is not absent. -/
theorem map_text_ne_unset {o : Except Error String} {w : Value} (h : o.map Value.text = .ok w) :
    w ≠ .unset := by
  obtain ⟨t, -, rfl⟩ := map_eq_ok.mp h
  exact nofun

/-- Different keys have different columns. -/
theorem key_eq_of_column_eq {other : String} (hcolumns : c.columnNames.Nodup) (hkey : key ∈ c.keys)
    (hother : other ∈ c.keys) (h : toSnake other = toSnake key) : other = key :=
  List.inj_on_of_nodup_map hcolumns hother hkey h

/-- Leaving out absent values leaves their keys out. -/
theorem withoutUnset_map (w : String → Value) (keys : List String) :
    withoutUnset (keys.map fun key => (toSnake key, w key)) =
      (keys.filter fun key => !(w key).isUnset).map fun key => (toSnake key, w key) := by
  rw [withoutUnset, List.filter_map]
  rfl

/-- A row without what is not given has the columns of the keys for which something is. -/
theorem get?_withoutUnset {w : String → Value} (hcolumns : (keys.map toSnake).Nodup)
    (hkey : key ∈ keys) :
    Record.get? (toSnake key) (withoutUnset (keys.map fun key => (toSnake key, w key))) =
      if (w key).isUnset then none else some (w key) := by
  rw [withoutUnset_map]
  split_ifs with hunset
  · refine Record.get?_eq_none fun hmem => ?_
    simp only [Record.names, List.map_map, List.mem_map, List.mem_filter, Function.comp_apply] at hmem
    obtain ⟨other, ⟨hother, hgiven⟩, hcolumn⟩ := hmem
    obtain rfl := List.inj_on_of_nodup_map hcolumns hother hkey hcolumn
    simp [hunset] at hgiven
  · have hnames : (Record.names ((keys.filter fun key => !(w key).isUnset).map
        fun key => (toSnake key, w key))).Nodup := by
      rw [Record.names, List.map_map]
      exact hcolumns.sublist (List.filter_sublist.map toSnake)
    have hfield : (toSnake key, w key) ∈ (keys.filter fun key => !(w key).isUnset).map
        fun key => (toSnake key, w key) :=
      List.mem_map.mpr ⟨key, List.mem_filter.mpr ⟨hkey, by simpa using hunset⟩, rfl⟩
    exact Record.get?_of_mem hnames hfield

section

variable [Limits]

/-! ## Single values -/

/-- The bound form of a given value is given. -/
theorem parameter_ne_unset {utc : Bool} {w : Value} (h : Value.parameter utc v = .ok w)
    (hv : v ≠ .unset) : w ≠ .unset := by
  unfold Value.parameter at h
  split at h
  · rw [← Except.ok.inj h]
    exact nofun
  · exact map_text_ne_unset h
  · rw [← Except.ok.inj h]
    exact nofun
  · exact map_text_ne_unset h
  · exact map_text_ne_unset h
  · rwa [← Except.ok.inj h]

/-- The stored form of a given value is given. -/
theorem encode_ne_unset {w : Value} (h : c.encode column v = .ok w) (hv : v ≠ .unset) : w ≠ .unset := by
  unfold encode encodeAs at h
  split at h
  · rwa [← Except.ok.inj h]
  · obtain ⟨b, -, rfl⟩ := map_eq_ok.mp h
    exact nofun
  · split at h
    · rw [← Except.ok.inj h]
      exact nofun
    · rw [← Except.ok.inj h]
      exact nofun
    · exact map_text_ne_unset h
  · exact parameter_ne_unset h hv

/-- The stored form of a plain value that is stored as its JSON text. -/
theorem isWritten_print {j : Json String} {depth : Nat}
    (hencode : c.encode column j.toValue = (Value.jsonText j.toValue).map .text) (h : Json.Plain depth j)
    (hkind : c.kindOf? column ≠ some .text) :
    Value.IsWritten (Fits (c.kindOf? column) j.toValue) (.text j.print) (c.encode column j.toValue) := by
  have hfits : Json.Plain Limits.depth j ↔ Fits (c.kindOf? column) j.toValue := by
    rw [h.iff_depth]
    exact ⟨fun hle _ => hle, fun hle => hle hkind⟩
  rw [hencode]
  exact ((Json.isWritten_jsonText h).map Value.text).congr hfits

/-- In a column of JSON the JSON text of a plain value is read as the value. -/
theorem decode_print_json {j : Json String} (hkind : c.kindOf? column = some .json)
    (h : Json.Plain Limits.depth j) : c.decode column (.text j.print) = .ok j.toValue := by
  rw [decode_eq_ok, ← Content.ofGlyphs_glyphs, read_text_json hkind, Json.glyphs_print,
    Content.readJsonText_write h.tree, Content.ofTree_tree]

/-- In a column without a kind the JSON text of a plain container is read as the container. -/
theorem decode_print_plain {j : Json String} (hkind : c.kindOf? column = none) (hparse : c.parseJson = true)
    (hcontainer : j.isContainer = true) (h : Json.Plain Limits.depth j) :
    c.decode column (.text j.print) = .ok j.toValue := by
  rw [decode_eq_ok, ← Content.ofGlyphs_glyphs, read_text_plain hkind hparse, Json.glyphs_print,
    Content.readJson_write (by rwa [Json.isContainer_tree]) h.tree, Content.ofTree_tree]

/-- A column keeps the values it is meant for, if they can be written. -/
theorem isWritten_canonical (hutc : c.utc = true) (hparse : c.parseJson = true)
    (h : Canonical (c.kindOf? column) v) :
    ∃ w, Value.IsWritten (Fits (c.kindOf? column) v) w (c.encode column v) ∧
      (Fits (c.kindOf? column) v → c.decode column w = .ok v) := by
  -- All but containers are written whatever the limits are.
  have hflat {w : Value} (hfits : Fits (c.kindOf? column) v) (hw : c.encode column v = .ok w)
      (hread : c.decode column w = .ok v) :
      ∃ w, Value.IsWritten (Fits (c.kindOf? column) v) w (c.encode column v) ∧
        (Fits (c.kindOf? column) v → c.decode column w = .ok v) :=
    ⟨w, .inl ⟨hfits, hw⟩, fun _ => hread⟩
  generalize hkind : c.kindOf? column = kind at h
  rw [hkind] at hflat
  cases h with
  | flag b =>
    refine hflat (w := .int (if b then 1 else 0)) (fun _ => Nat.zero_le _) ?_ ?_
    · rw [encode, hkind]
      cases b <;> rfl
    · rw [decode, hkind]
      cases b <;> rfl
  | noMoment => exact hflat (fun _ => Nat.zero_le _) (by rw [encode, hkind]; rfl) (decode_null c column)
  | @moment m hvalid hoffset hmicro hfour =>
    refine hflat (w := .text (String.ofList m.storedChars)) (fun _ => Nat.zero_le _) ?_ ?_
    · have hwritten : c.encode column (.moment m) = (Value.storedMoment c.utc m).map .text := by
        rw [encode, hkind]
        rfl
      rw [hwritten, hutc, Value.storedMoment_utc hoffset]
      rfl
    · rw [decode, hkind, decodeAs_date, hutc, Value.readMoment_storedChars hoffset hmicro hvalid hfour]
  | @json j depth hplain htext =>
    by_cases hnull : j = .null
    · subst hnull
      exact hflat (fun _ => Nat.zero_le _) (by rw [encode, hkind]; rfl) (decode_null c column)
    · have hencode : c.encode column j.toValue = (Value.jsonText j.toValue).map .text := by
        rw [encode, hkind]
        cases j with
        | null => exact absurd rfl hnull
        | text t => exact absurd rfl (htext t)
        | _ => rfl
      have hwritten := isWritten_print hencode hplain (by simp [hkind])
      rw [hkind] at hwritten
      refine ⟨_, hwritten, fun hfits => decode_print_json hkind ?_⟩
      exact (hplain.iff_depth _).mpr (hfits (by simp))
  | given hgiven =>
    refine hflat (fun htext => absurd rfl htext) (by rw [encode, hkind]; rfl) ?_
    rw [decode, hkind]
    cases v <;> rfl
  | nothing => exact hflat (fun _ => Nat.zero_le _) (by rw [encode, hkind]; rfl) (decode_null c column)
  | int n =>
    exact hflat (fun _ => Nat.zero_le _) (by rw [encode, hkind]; rfl) (by rw [decode, hkind]; rfl)
  | @text s hsame =>
    refine hflat (w := .text s) (fun _ => Nat.zero_le _) (by rw [encode, hkind]; rfl) ?_
    rwa [decode, hkind, decodeAs_none_text, if_pos hparse]
  | @container j depth hplain hcontainer =>
    have hencode : c.encode column j.toValue = (Value.jsonText j.toValue).map .text := by
      rw [encode, hkind]
      cases j with
      | array items => rfl
      | object fields => rfl
      | _ => exact absurd hcontainer Bool.false_ne_true
    have hwritten := isWritten_print hencode hplain (by simp [hkind])
    rw [hkind] at hwritten
    refine ⟨_, hwritten, fun hfits => decode_print_plain hkind hparse hcontainer ?_⟩
    exact (hplain.iff_depth _).mpr (hfits (by simp))

/-- What is stored where an object has nothing is read as NULL, and as false where truth values
are. -/
theorem decode_encode_null (c : Codec) (column : String) : ∃ w, w ≠ .unset ∧
    c.encode column .null = .ok w ∧
      c.decode column w = .ok (if c.kindOf? column = some .boolean then .bool false else .null) := by
  cases hkind : c.kindOf? column with
  | none => exact ⟨.null, by simp, by rw [encode, hkind]; rfl, decode_null c column⟩
  | some kind =>
    cases kind with
    | boolean => exact ⟨.int 0, by simp, by rw [encode, hkind]; rfl, by rw [decode, hkind]; rfl⟩
    | _ => exact ⟨.null, by simp, by rw [encode, hkind]; rfl, decode_null c column⟩

/-! ## Objects -/

/-- An object for a codec: each field has the name that is chosen for one of the keys, which is the
key or its column, and a value that the column is meant for. -/
structure Admits (c : Codec) (name : String → String) (object : Record) : Prop where
  named : ∀ key ∈ c.keys, name key = key ∨ name key = toSnake key
  known : ∀ n ∈ Record.names object, ∃ key ∈ c.keys, n = name key
  canonical : ∀ key ∈ c.keys, ∀ v, Record.get? (name key) object = some v →
    Canonical (c.kindOf? (toSnake key)) v

/-- What an object that has the value of a key under `name` has under the key once it was stored and
restored. -/
def restored (c : Codec) (object : Record) (name key : String) : Option Value :=
  match Record.get? name object with
  | some v => some v
  | none =>
    if c.isAutoSet (toSnake key) then none
    else some (if c.kindOf? (toSnake key) = some .boolean then .bool false else .null)

variable {object : Record} {name : String → String}

/-- A name that is admitted for a key has its column. -/
theorem Admits.toSnake_name (h : c.Admits name object) (hkey : key ∈ c.keys) :
    toSnake (name key) = toSnake key := by
  obtain hname | hname := h.named key hkey
  · rw [hname]
  · rw [hname, Text.Name.toSnake_toSnake]

/-- An object has no other name for a key than the chosen one. -/
theorem Admits.get?_eq_none (h : c.Admits name object) (hcolumns : c.columnNames.Nodup)
    (hkey : key ∈ c.keys) {n : String} (hsnake : toSnake n = toSnake key) (hne : n ≠ name key) :
    Record.get? n object = none := by
  refine Record.get?_eq_none fun hn => ?_
  obtain ⟨other, hother, rfl⟩ := h.known n hn
  rw [h.toSnake_name hother] at hsnake
  exact hne (by rw [key_eq_of_column_eq hcolumns hkey hother hsnake])

/-- What an object has for a key is what it has under the chosen name. -/
theorem Admits.valueOf_eq (h : c.Admits name object) (hcolumns : c.columnNames.Nodup)
    (hkey : key ∈ c.keys) :
    valueOf (.record object) key (toSnake key) = .ok (Record.getD (name key) object) := by
  have hnone {n : String} (hsnake : toSnake n = toSnake key) (hne : n ≠ name key) :
      Record.getD n object = .unset := by
    rw [Record.getD, h.get?_eq_none hcolumns hkey hsnake hne]
    rfl
  have hunset : Record.getD (name key) object = .unset ∨
      (Record.getD (name key) object).isUnset = false := by
    cases Record.getD (name key) object <;> simp [Value.isUnset]
  rw [valueOf_record]
  congr 1
  by_cases hname : key = name key
  · rw [← hname] at hunset ⊢
    obtain hunset | hunset := hunset
    · rw [hunset]
      by_cases hcolumn : key = toSnake key
      · rw [if_pos (by rfl), if_pos hcolumn]
      · have hother := hnone (Text.Name.toSnake_toSnake key) (hname ▸ Ne.symm hcolumn)
        rw [if_pos (by rfl), if_neg hcolumn, hother]
    · simp [hunset]
  · have hcolumn : name key = toSnake key := (h.named key hkey).resolve_left (Ne.symm hname)
    have hother : key ≠ toSnake key := fun heq => hname (heq.trans hcolumn.symm)
    rw [hnone rfl hname, hcolumn]
    simp [Value.isUnset, hother]

/-! ## There and back -/

/-- Whether a stored form of what an object has for a key is read as what it is to have when
restored: nothing where nothing was given. -/
def Restores (c : Codec) (key : String) (w : Value) (o : Option Value) : Prop :=
  w = .unset ∧ o = none ∨ w ≠ .unset ∧ ∃ v, o = some v ∧ c.decode (toSnake key) w = .ok v

/-- Whether what an object has for a key is not too deep to be written. -/
def KeyFits (c : Codec) (name : String → String) (object : Record) (key : String) : Prop :=
  ∀ v, Record.get? (name key) object = some v → Fits (c.kindOf? (toSnake key)) v

/-- What an object has for a key is stored if it fits, and its stored form is read as it is to
be. -/
theorem Admits.encodeKey_restores (h : c.Admits name object) (hcolumns : c.columnNames.Nodup)
    (hutc : c.utc = true) (hparse : c.parseJson = true) (hkey : key ∈ c.keys) :
    ∃ w, Value.IsWritten (c.KeyFits name object key) (some w)
        (c.encodeKey false false (.record object) key (toSnake key)) ∧
      (c.KeyFits name object key → c.Restores key w (c.restored object (name key) key)) := by
  have hvalue := h.valueOf_eq hcolumns hkey
  cases hget : Record.get? (name key) object with
  | some v =>
    rw [Record.getD, hget, Option.getD_some] at hvalue
    have hcanonical := h.canonical key hkey v hget
    have hgiven := hcanonical.ne_unset
    have hfits : Fits (c.kindOf? (toSnake key)) v ↔ c.KeyFits name object key := by
      simp [KeyFits, hget]
    have hencode : c.encodeKey false false (.record object) key (toSnake key) =
        (c.encode (toSnake key) v).map some := by
      simp only [encodeKey, Bool.false_and, Bool.false_eq_true, if_false, hvalue, bind, Except.bind]
      cases v with
      | unset => exact absurd rfl hgiven
      | _ => cases c.encode (toSnake key) _ <;> rfl
    obtain ⟨w, hw, hread⟩ := isWritten_canonical hutc hparse hcanonical
    refine ⟨w, ?_, fun hkeyfits => .inr ⟨?_, v, by rw [restored, hget], hread (hfits.mpr hkeyfits)⟩⟩
    · rw [hencode]
      exact (hw.map some).congr hfits
    · obtain ⟨-, hw⟩ | ⟨hdeep, -⟩ := hw
      · exact encode_ne_unset hw hgiven
      · exact absurd (hfits.mpr hkeyfits) hdeep
  | none =>
    rw [Record.getD, hget, Option.getD_none] at hvalue
    have hfits : c.KeyFits name object key := by
      intro v hv
      exact nomatch hget.symm.trans hv
    cases hauto : c.isAutoSet (toSnake key) with
    | true =>
      refine ⟨.unset, .inl ⟨hfits, ?_⟩, fun _ => .inl ⟨rfl, by simp [restored, hget, hauto]⟩⟩
      simp [encodeKey, hvalue, hauto]
    | false =>
      obtain ⟨w, hgiven, hw, hread⟩ := decode_encode_null c (toSnake key)
      refine ⟨w, .inl ⟨hfits, ?_⟩, fun _ => .inr ⟨hgiven, _, by simp [restored, hget, hauto], hread⟩⟩
      simp [encodeKey, hvalue, hauto, hw]

/-- The row of an object has the columns in order, each with the stored form for its key. There is
none if one of the values is too deep to be written. -/
theorem isWritten_encodeKeys {w : String → Value} {fits : String → Prop} {skipAuto part : Bool}
    {given : Value} {row : Record} (h : ∀ key ∈ keys,
      Value.IsWritten (fits key) (some (w key)) (c.encodeKey skipAuto part given key (toSnake key)))
    (hnew : (Record.names row ++ keys.map toSnake).Nodup) :
    Value.IsWritten (∀ key ∈ keys, fits key) (row ++ keys.map fun key => (toSnake key, w key))
      (c.encodeKeys skipAuto part given row keys) := by
  induction keys generalizing row with
  | nil => exact .inl ⟨nofun, by simp [encodeKeys]⟩
  | cons key rest ih =>
    obtain ⟨hkey, hrest⟩ := List.forall_mem_cons.mp h
    rw [List.forall_mem_cons]
    obtain ⟨hfits, hkey⟩ | ⟨hdeep, hkey⟩ := hkey
    · have hcolumn : toSnake key ∉ Record.names row := fun hmem =>
        (List.nodup_append.mp hnew).2.2 _ hmem _ List.mem_cons_self rfl
      have hset : Record.set (toSnake key) (w key) row = row ++ [(toSnake key, w key)] := by
        have hset := Record.set_append hcolumn (w key) []
        rwa [List.append_nil] at hset
      have hlater : (Record.names (row ++ [(toSnake key, w key)]) ++ rest.map toSnake).Nodup := by
        simpa [Record.names] using hnew
      simp only [encodeKeys, hkey, bind, Except.bind, hset]
      have hrow := (ih hrest hlater).congr ⟨fun hall => And.intro hfits hall, And.right⟩
      rwa [List.append_assoc, List.singleton_append] at hrow
    · refine .inr ⟨fun h => hdeep h.1, ?_⟩
      simp only [encodeKeys, hkey, bind, Except.bind, misfit]

/-- The object of a row has the values that its cells are read as. -/
theorem decodeKeys_eq {row : Record} {o : String → Option Value}
    (h : ∀ key ∈ keys, Record.get? (toSnake key) row = none ∧ o key = none ∨
      ∃ w v, Record.get? (toSnake key) row = some w ∧ o key = some v ∧
        c.decode (toSnake key) w = .ok v) :
    c.decodeKeys (.record row) "" keys = .ok (keys.filterMap fun key => (o key).map (key, ·)) := by
  induction keys with
  | nil => rfl
  | cons key rest ih =>
    obtain ⟨hkey, hrest⟩ := List.forall_mem_cons.mp h
    have hcell : cell (.record row) ("" ++ toSnake key) = .ok (Record.get? (toSnake key) row) := by
      rw [String.empty_append]
      rfl
    obtain ⟨hget, ho⟩ | ⟨w, v, hget, ho, hread⟩ := hkey
    · simp only [decodeKeys_cons, hcell, hget, ih hrest, bind, Except.bind]
      simp [ho]
    · simp only [decodeKeys_cons, hcell, hget, hread, ih hrest, bind, Except.bind]
      simp [ho, pure, Except.pure]

/-- An object is the same once it was stored and restored. Where it has nothing for a key, it then
has NULL, or false where truth values are, unless the database assigns the column. If something in
it is too deep to be written, it has no row. -/
theorem toObject_toRow (hcolumns : c.columnNames.Nodup) (hutc : c.utc = true)
    (hparse : c.parseJson = true) (h : c.Admits name object) :
    ((∀ key ∈ c.keys, c.KeyFits name object key) →
      ∃ row, c.toRow (.record object) false false = .ok row ∧
        c.toObject (.record (withoutUnset row)) "" = .ok (c.keys.filterMap fun key =>
          (c.restored object (name key) key).map (key, ·))) ∧
    (¬(∀ key ∈ c.keys, c.KeyFits name object key) →
      c.toRow (.record object) false false = misfit .writtenDepth) := by
  have hstored : ∀ key ∈ c.keys, ∃ w, Value.IsWritten (c.KeyFits name object key) (some w)
        (c.encodeKey false false (.record object) key (toSnake key)) ∧
      (c.KeyFits name object key → c.Restores key w (c.restored object (name key) key)) :=
    fun key hkey => h.encodeKey_restores hcolumns hutc hparse hkey
  choose! w hw hrestores using hstored
  have hwritten : Value.IsWritten (∀ key ∈ c.keys, c.KeyFits name object key)
      ([] ++ c.keys.map fun key => (toSnake key, w key)) (c.toRow (.record object) false false) :=
    isWritten_encodeKeys hw hcolumns
  obtain ⟨hfits, hrow⟩ | ⟨hdeep, hrow⟩ := hwritten
  · refine ⟨fun _ => ⟨c.keys.map fun key => (toSnake key, w key), hrow, decodeKeys_eq fun key hkey => ?_⟩,
      fun hdeep => absurd hfits hdeep⟩
    rw [get?_withoutUnset hcolumns hkey]
    obtain ⟨hunset, ho⟩ | ⟨hgiven, v, ho, hread⟩ := hrestores key hkey (hfits key hkey)
    · exact .inl ⟨by rw [hunset]; rfl, ho⟩
    · refine .inr ⟨w key, v, if_neg ?_, ho, hread⟩
      cases hvalue : w key <;> first | exact absurd hvalue hgiven | exact Bool.false_ne_true
  · exact ⟨fun hfits => absurd hfits hdeep, fun _ => hrow⟩

end

/-- A codec with a column of each kind, the first of them assigned by the database. -/
def storyCodec : Codec :=
  ⟨["id", "isDraft", "meta", "createdAt", "title"], ["id"], [("meta", .json), ("title", .text)], true,
    true⟩

/-- An object without the assigned key and without a moment. -/
theorem toObject_toRow_story :
    ∃ row, storyCodec.toRow (.record [("isDraft", .bool true), ("meta", .list [.null, .int 1]),
        ("title", .text "[1]")]) false false = .ok row ∧
      storyCodec.toObject (.record (withoutUnset row)) "" = .ok [("isDraft", .bool true),
        ("meta", .list [.null, .int 1]), ("createdAt", .null), ("title", .text "[1]")] := by
  have hdraft : storyCodec.kindOf? (toSnake "isDraft") = some .boolean := by decide
  have hmeta : storyCodec.kindOf? (toSnake "meta") = some .json := by decide
  have htitle : storyCodec.kindOf? (toSnake "title") = some .text := by decide
  have hadmits : storyCodec.Admits id [("isDraft", .bool true), ("meta", .list [.null, .int 1]),
      ("title", .text "[1]")] := by
    refine ⟨fun _ _ => .inl rfl, by decide, ?_⟩
    have hplain : Json.Plain 1 (.array [.null, .int 1] : Json String) := by
      refine .array (List.forall_mem_cons.mpr ⟨.null, List.forall_mem_singleton.mpr (.int ?_)⟩)
      decide
    intro key hkey v hv
    simp only [storyCodec, List.mem_cons, List.not_mem_nil, or_false] at hkey
    obtain rfl | rfl | rfl | rfl | rfl := hkey
    · exact nomatch hv
    · obtain rfl := Option.some.inj hv
      rw [hdraft]
      exact .flag true
    · obtain rfl := Option.some.inj hv
      rw [hmeta]
      exact .json hplain nofun
    · exact nomatch hv
    · obtain rfl := Option.some.inj hv
      rw [htitle]
      exact .given nofun
  have hfits : ∀ key ∈ storyCodec.keys, storyCodec.KeyFits id [("isDraft", .bool true),
      ("meta", .list [.null, .int 1]), ("title", .text "[1]")] key := by
    intro key hkey v hv
    simp only [storyCodec, List.mem_cons, List.not_mem_nil, or_false] at hkey
    obtain rfl | rfl | rfl | rfl | rfl := hkey
    · exact nomatch hv
    · obtain rfl := Option.some.inj hv
      exact fun _ => Nat.zero_le _
    · obtain rfl := Option.some.inj hv
      exact fun _ => by decide
    · exact nomatch hv
    · obtain rfl := Option.some.inj hv
      exact fun _ => Nat.zero_le _
  exact (toObject_toRow (by decide) rfl rfl hadmits).1 hfits

/-- A codec for one column of text. -/
def noteCodec : Codec := ⟨["note"], [], [("note", .text)], true, true⟩

/-- Each array around another one adds to the depth. -/
theorem depth_nested (n : Nat) : (Json.nested n).toValue.depth = n + 1 := by
  induction n with
  | zero => rfl
  | succ n ih =>
    rw [Json.nested, Json.toValue, Value.depth, Json.toValues, Json.toValues, Value.itemsDepth, ih]
    rfl

/-- An object with arrays inside of each other, more than can be written, has no row. -/
theorem toRow_nested [Limits] {n : Nat} (h : Limits.depth ≤ n) :
    payloadCodec.toRow (.record [("payload", (Json.nested n).toValue)]) false false =
      misfit .writtenDepth := by
  have hsnake : toSnake "payload" = "payload" := by decide
  have hkind : payloadCodec.kindOf? "payload" = some .json := by decide
  have hkeys : payloadCodec.keys = ["payload"] := rfl
  obtain ⟨items, hitems⟩ : ∃ items, (Json.nested n).toValue = .list items := by
    cases n with
    | zero => exact ⟨[], rfl⟩
    | succ n => exact ⟨[(Json.nested n).toValue], rfl⟩
  have hencode : payloadCodec.encode "payload" (Json.nested n).toValue =
      (Value.jsonText (Json.nested n).toValue).map .text := by
    rw [encode, hkind, hitems]
    rfl
  have hwritten : payloadCodec.encode "payload" (Json.nested n).toValue = misfit .writtenDepth := by
    obtain ⟨hfits, -⟩ | ⟨-, hdeep⟩ := isWritten_print hencode (Json.plain_nested n) (by simp [hkind])
    · have hdepth := hfits (by simp [hkind])
      rw [depth_nested] at hdepth
      omega
    · exact hdeep
  rw [hitems] at hwritten ⊢
  have hkey : payloadCodec.encodeKey false false (.record [("payload", .list items)]) "payload" "payload" =
      misfit .writtenDepth := by
    simp [encodeKey, valueOf, Record.getD, Record.get?, hwritten, misfit, bind, Except.bind]
  rw [toRow, hkeys, encodeKeys, hsnake]
  simp only [bind, Except.bind, hkey, misfit]

/-- What is not given in a column of text counts as missing, and of arrays inside of each other,
more than can be written, there is no row. -/
theorem toObject_toRow_lost :
    (∃ row, noteCodec.toRow (.record [("note", .unset)]) false false = .ok row ∧
      noteCodec.toObject (.record (withoutUnset row)) "" = .ok [("note", .null)]) ∧
    payloadCodec.toRow (.record [("payload", (Json.nested Limits.depth).toValue)]) false false =
      misfit .writtenDepth :=
  ⟨⟨[("note", .null)], by rfl, by rfl⟩, toRow_nested (Nat.le_refl _)⟩

end Codec

end Quarry
