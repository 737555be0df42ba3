import Quarry.Proofs.Row.Object
import Quarry.Proofs.Row.RoundTrip

/-!
# Reading what a driver returns

A stored value is read for the kind of its column: as the spelling of a truth value, as a moment, as
JSON text. Where it is none of these it is taken as it is, or for a truth value by whether it counts
as true. What is in the way of that is listed in `Codec.isUnreadable`: byte strings that are no
text, moments that UTC has no date for, and JSON text in which containers stand too deep. A row is
read exactly if none of its cells is one of these, and then each key has what its cell is read as
(`Codec.reading`).
-/

set_option autoImplicit false

namespace Quarry

open Text.Name (toSnake)
open Json (Glyph Tree glyphs)

namespace Value

/-- Whether a driver can return the value from a column. -/
def isReturned : Value → Bool
  | .null => true
  | .bool _ => true
  | .int _ => true
  | .real (.finite ..) => true
  | .decimal (.finite ..) => true
  | .text _ => true
  | .bytes _ => true
  | .moment _ => true
  | .date _ => true
  | _ => false

/-! ## What values denote -/

/-- The truth value that a text spells. -/
def spelled? (s : String) : Option Bool :=
  if trueTexts.contains s then some true else if falseTexts.contains s then some false else none

/-- Whether a byte string is a single bit. -/
def isBit (data : List UInt8) : Bool := data == [0] || data == [1]

/-- The truth value that a stored value spells. -/
def flag? : Value → Option Bool
  | .text s => spelled? s
  | .bytes data =>
    if isBit data then some (data == [1]) else (Text.Utf8.decode data).toOption.bind spelled?
  | _ => none

/-- The moment that a stored value denotes, where it can be placed. -/
def moment? (utc : Bool) (m : Time.Moment) : Option Time.Moment := if utc then m.toUtc? else some m

end Value

namespace Content

variable [Limits]

/-- What comes of reading a text as that of a container. -/
def container (gs : List Glyph) : Except Json.Unread Tree :=
  containerIn (Text.trimBy (Glyph.any Text.isBlank) gs)

/-- The JSON whose text a text is, or else the container inside of it. -/
def json? (gs : List Glyph) : Option Tree := (Json.read gs).toOption.or (container gs).toOption

/-- Whether reading has come upon containers that stand too deep. -/
def isTooDeep : Except Json.Unread Tree → Bool
  | .error (.tooDeep _) => true
  | _ => false

/-- Whether containers stand too deep in a text, or in the text that it is the JSON text of. -/
def isDeep (gs : List Glyph) : Bool :=
  match Json.read gs with
  | .ok _ => false
  | .error .malformed => isTooDeep (container gs)
  | .error (.tooDeep _) => true

end Content

namespace Codec

open Content (container isDeep isTooDeep)

/-- What a value is taken for that cannot be interpreted: for a truth value by whether it counts as
true, and for itself otherwise. -/
def uninterpreted (kind : Option Kind) (v : Value) : Content :=
  .value (if kind = some .boolean then .bool v.isTrue else v)

section

variable [Limits]

/-- What a stored value denotes for a kind; nothing if it cannot be interpreted. A byte string in a
JSON column denotes its text if that denotes nothing. -/
def meaning? (utc parseJson : Bool) (kind : Option Kind) (v : Value) : Option Content :=
  match kind, v with
  | some .boolean, .null => some (.value .null)
  | some .boolean, v => v.flag?.map fun b => .value (.bool b)
  | some .date, .text s =>
    ((Time.Moment.ofStored? s).bind (Value.moment? utc)).map fun m => .value (.moment m)
  | some .date, .moment m => (Value.moment? utc m).map fun m => .value (.moment m)
  | some .json, .text s => (Content.json? (glyphs s.toList)).map .ofTree
  | some .json, .bytes data => (Text.Utf8.decode data).toOption.map fun s =>
      ((Content.json? (glyphs s.toList)).map .ofTree).getD (.ofGlyphs (glyphs s.toList))
  | none, .text s => if parseJson then (container (glyphs s.toList)).toOption.map .ofTree else none
  | _, _ => none

/-- What a stored value is read as in a column. -/
def reading (c : Codec) (column : String) (v : Value) : Content :=
  (meaning? c.utc c.parseJson (c.kindOf? column) v).getD (uninterpreted (c.kindOf? column) v)

/-- Whether a stored value is one of those whose reading fails. -/
def isUnreadableAs (utc parseJson : Bool) (kind : Option Kind) (v : Value) : Bool :=
  match kind, v with
  | some .boolean, .bytes data => (Text.Utf8.decode data).toOption.isNone
  | some .date, .text s => (Time.Moment.ofStored? s).any fun m => (Value.moment? utc m).isNone
  | some .date, .moment m => (Value.moment? utc m).isNone
  | some .json, .text s => isDeep (glyphs s.toList)
  | some .json, .bytes data => (Text.Utf8.decode data).toOption.all fun s => isDeep (glyphs s.toList)
  | none, .text s => parseJson && isTooDeep (container (glyphs s.toList))
  | _, _ => false

/-- Whether reading a stored value in a column fails. -/
def isUnreadable (c : Codec) (column : String) (v : Value) : Bool :=
  isUnreadableAs c.utc c.parseJson (c.kindOf? column) v

end

end Codec

/-! ## Readers -/

/-- What is known of a reading that does not fail. -/
theorem readable_iff {α : Type} {x : Except Error α} {a b : α} {unreadable : Bool} (hx : x = .ok a)
    (h : unreadable = false) : x = .ok b ↔ unreadable = false ∧ b = a := by
  rw [hx]
  exact ⟨fun hb => ⟨h, (Except.ok.inj hb).symm⟩, fun hb => congrArg Except.ok hb.2.symm⟩

namespace Value

variable {s : String} {v : Value}

/-- A text stands for what it spells, and counts as true if it spells nothing. -/
theorem flagOfText_eq (s : String) : flagOfText s = (spelled? s).getD true := by
  unfold flagOfText spelled?
  cases trueTexts.contains s <;> cases falseTexts.contains s <;> rfl

/-- A text that spells no truth value counts as true. -/
theorem isTrue_text_of_spelled? (h : spelled? s = none) : isTrue (.text s) = true := by
  have hempty : s ≠ "" := by
    rintro rfl
    exact absurd h (by decide)
  simpa [isTrue] using hempty

/-- Bytes have a text exactly if they are valid UTF-8. -/
theorem textOfBytes_eq_ok {data : List UInt8} :
    textOfBytes data = .ok s ↔ (Text.Utf8.decode data).toOption = some s := by
  unfold textOfBytes
  cases Text.Utf8.decode data <;> simp [misfit, Except.toOption]

/-- A moment is placed exactly if it stays in range. -/
theorem map_placeMoment_eq_ok {utc : Bool} {m : Time.Moment} {x y : Content} :
    (placeMoment utc m).map .value = .ok x ↔
      (moment? utc m).isNone = false ∧ x = ((moment? utc m).map fun m => .value (.moment m)).getD y := by
  unfold placeMoment moment?
  cases utc with
  | false => exact readable_iff rfl rfl
  | true =>
    cases m.toUtc? with
    | none => simp [misfit]
    | some u => exact readable_iff rfl rfl

/-- A bit is read as the truth value it is, and is valid UTF-8. -/
theorem readFlag_bit {data : List UInt8} (h : isBit data = true) :
    readFlag (.bytes data) = .ok (some (data == [1])) ∧ (Text.Utf8.decode data).toOption.isNone = false := by
  obtain rfl | rfl : data = [0] ∨ data = [1] := by simpa [isBit] using h
  · exact ⟨rfl, rfl⟩
  · exact ⟨rfl, rfl⟩

/-- A byte string that is no bit is read as its text. -/
theorem readFlag_not_bit {data : List UInt8} (h : isBit data = false) :
    readFlag (.bytes data) = (textOfBytes data).map fun s => some (flagOfText s) := by
  rcases data with _ | ⟨b, _ | ⟨b', rest⟩⟩
  · rfl
  · have hb : ¬ b.toNat ≤ 1 := by
      intro hb
      obtain hzero | hone : b.toNat = 0 ∨ b.toNat = 1 := by omega
      · simp [isBit, UInt8.toNat_inj.mp (hzero.trans (UInt8.toNat_zero).symm)] at h
      · simp [isBit, UInt8.toNat_inj.mp (hone.trans (UInt8.toNat_one).symm)] at h
    simp [readFlag, hb]
  · rfl

/-- Bytes are read as a truth value exactly if they are valid UTF-8. -/
theorem readFlag_bytes {data : List UInt8} {o : Option Bool} :
    readFlag (.bytes data) = .ok o ↔ (Text.Utf8.decode data).toOption.isNone = false ∧
      o = some ((flag? (.bytes data)).getD (isTrue (.bytes data))) := by
  rw [flag?]
  cases hbit : isBit data with
  | true =>
    obtain ⟨hflag, htext⟩ := readFlag_bit hbit
    exact readable_iff hflag htext
  | false =>
    rw [readFlag_not_bit hbit, map_eq_ok, if_neg Bool.false_ne_true]
    simp only [textOfBytes_eq_ok]
    cases htext : (Text.Utf8.decode data).toOption with
    | none => simp
    | some s =>
      have hflag : flagOfText s = ((some s).bind spelled?).getD (isTrue (.bytes data)) := by
        rw [flagOfText_eq, Option.bind_some]
        cases hspelled : spelled? s with
        | some b => rfl
        | none =>
          -- The empty text spells false, so there is a byte.
          have hempty : data ≠ [] := by
            rintro rfl
            obtain rfl : "" = s := Option.some.inj htext
            exact absurd hspelled (by decide)
          simpa [isTrue] using hempty
      rw [← hflag]
      simp [eq_comm]

/-- Only a byte string may fail to be read as a truth value. -/
theorem readFlag_returned (hreturned : v.isReturned = true) (hnull : v ≠ .null)
    (hbytes : ∀ data, v ≠ .bytes data) : readFlag v = .ok (some ((flag? v).getD v.isTrue)) := by
  cases v with
  | null => exact absurd rfl hnull
  | bytes data => exact absurd rfl (hbytes data)
  | text s =>
    rw [readFlag, flagOfText_eq, flag?]
    cases h : spelled? s with
    | some b => rfl
    | none => rw [isTrue_text_of_spelled? h]
  | decimal d =>
    cases d with
    | finite => rfl
    | _ => exact absurd hreturned Bool.false_ne_true
  | _ => rfl

end Value

namespace Content

variable {x : Content} {gs : List Glyph}

/-- What was read is given on exactly if it was not too deep. -/
theorem ofRead_eq_ok {result : Except Json.Unread Tree} {o : Option Content} :
    ofRead result = .ok o ↔ isTooDeep result = false ∧ o = result.toOption.map .ofTree := by
  unfold ofRead
  rcases result with (_ | object) | t
  · exact readable_iff rfl rfl
  · simp [isTooDeep, misfit]
  · exact readable_iff rfl rfl

variable [Limits]

/-- JSON is read from a text exactly if its container is not too deep, and else the text stays. -/
theorem readJson_eq_ok :
    readJson gs = .ok x ↔ isTooDeep (container gs) = false ∧
      x = ((container gs).toOption.map .ofTree).getD (.ofGlyphs gs) := by
  unfold readJson
  rw [bind_eq_ok]
  constructor
  · rintro ⟨o, ho, hx⟩
    obtain ⟨hshallow, rfl⟩ := ofRead_eq_ok.mp ho
    exact ⟨hshallow, (pure_eq_ok.mp hx).symm⟩
  · rintro ⟨hshallow, rfl⟩
    exact ⟨_, ofRead_eq_ok.mpr ⟨hshallow, rfl⟩, rfl⟩

/-- A text column is read as JSON exactly if it is not too deep. -/
theorem readJsonText_eq_ok :
    readJsonText gs = .ok x ↔ isDeep gs = false ∧ x = ((json? gs).map .ofTree).getD (.ofGlyphs gs) := by
  unfold isDeep json?
  cases hread : Json.read gs with
  | error defect =>
    cases defect with
    | malformed =>
      rw [readJsonText_of_malformed hread]
      exact readJson_eq_ok
    | tooDeep object =>
      rw [readJsonText_of_tooDeep hread]
      simp [misfit]
  | ok t => exact readable_iff (readJsonText_of_read hread) rfl

end Content

namespace Codec

/-- How the first key is read. -/
theorem readCells_cons {α : Type} (read : String → Value → Except Error α) (row : Value) (start key : String)
    (keys : List String) : readCells read row start (key :: keys) = (do
      match ← cell row (start ++ toSnake key) with
      | none => readCells read row start keys
      | some v =>
        let value ← read (toSnake key) v
        return (key, value) :: (← readCells read row start keys)) := rfl

section

variable [Limits] {c : Codec} {column : String} {v : Value} {x : Content} {utc parseJson : Bool}

/-- A column of truth values is read by its meaning, unless it is unreadable. -/
theorem readAs_boolean (hreturned : v.isReturned = true) :
    readAs utc parseJson (some .boolean) v = .ok x ↔
      isUnreadableAs utc parseJson (some .boolean) v = false ∧
        x = (meaning? utc parseJson (some .boolean) v).getD (uninterpreted (some .boolean) v) := by
  by_cases hnull : v = .null
  · subst hnull
    exact readable_iff rfl rfl
  · have hread : readAs utc parseJson (some .boolean) v =
        (Value.readFlag v).map fun b => .value (Value.ofOption .bool b) := by
      cases v <;> first | exact absurd rfl hnull | rfl
    have hreading : (meaning? utc parseJson (some .boolean) v).getD (uninterpreted (some .boolean) v) =
        .value (.bool (v.flag?.getD v.isTrue)) := by
      have hmeaning : meaning? utc parseJson (some .boolean) v = v.flag?.map fun b => .value (.bool b) := by
        cases v <;> first | exact absurd rfl hnull | rfl
      rw [hmeaning]
      cases v.flag? <;> rfl
    rw [hread, hreading]
    by_cases hbytes : ∃ data, v = .bytes data
    · obtain ⟨data, rfl⟩ := hbytes
      rw [map_eq_ok]
      simp only [Value.readFlag_bytes]
      constructor
      · rintro ⟨o, ⟨htext, rfl⟩, rfl⟩
        exact ⟨htext, rfl⟩
      · rintro ⟨htext, rfl⟩
        exact ⟨_, ⟨htext, rfl⟩, rfl⟩
    · have hflag := Value.readFlag_returned hreturned hnull fun data h => hbytes ⟨data, h⟩
      refine readable_iff (by rw [hflag]; rfl) ?_
      cases v <;> first | exact absurd ⟨_, rfl⟩ hbytes | rfl

/-- A column of dates is read by its meaning, unless it is unreadable. -/
theorem readAs_date :
    readAs utc parseJson (some .date) v = .ok x ↔
      isUnreadableAs utc parseJson (some .date) v = false ∧
        x = (meaning? utc parseJson (some .date) v).getD (uninterpreted (some .date) v) := by
  cases v with
  | text s =>
    unfold readAs isUnreadableAs meaning? Value.readMoment
    dsimp only
    cases Time.Moment.ofStored? s with
    | none => exact readable_iff rfl rfl
    | some m => exact Value.map_placeMoment_eq_ok
  | moment m => exact Value.map_placeMoment_eq_ok
  | _ => exact readable_iff rfl rfl

/-- A JSON column is read by its meaning, unless it is unreadable. -/
theorem readAs_json (hreturned : v.isReturned = true) :
    readAs utc parseJson (some .json) v = .ok x ↔
      isUnreadableAs utc parseJson (some .json) v = false ∧
        x = (meaning? utc parseJson (some .json) v).getD (uninterpreted (some .json) v) := by
  cases v with
  | text s =>
    have hread : readAs utc parseJson (some .json) (.text s) = Content.readJsonText (glyphs s.toList) := rfl
    rw [hread, Content.readJsonText_eq_ok, Content.ofGlyphs_glyphs]
    rfl
  | bytes data =>
    unfold readAs isUnreadableAs meaning?
    rw [bind_eq_ok]
    simp only [Value.textOfBytes_eq_ok]
    cases (Text.Utf8.decode data).toOption with
    | none => simp
    | some s => simp [Content.readJsonText_eq_ok]
  | buffer => exact absurd hreturned Bool.false_ne_true
  | _ => exact readable_iff rfl rfl

/-- An undeclared column is read by its meaning, unless it is unreadable. -/
theorem readAs_untyped :
    readAs utc parseJson none v = .ok x ↔ isUnreadableAs utc parseJson none v = false ∧
      x = (meaning? utc parseJson none v).getD (uninterpreted none v) := by
  cases v with
  | text s =>
    cases parseJson with
    | false => exact readable_iff rfl rfl
    | true =>
      have hread : readAs utc true none (.text s) = Content.readJson (glyphs s.toList) := rfl
      rw [hread, Content.readJson_eq_ok, Content.ofGlyphs_glyphs]
      rfl
  | _ => exact readable_iff rfl rfl

/-- A stored value is read exactly if it is readable, and then as its reading. -/
theorem read_eq_ok_iff (hreturned : v.isReturned = true) :
    c.read column (.value v) = .ok x ↔ c.isUnreadable column v = false ∧ x = c.reading column v := by
  unfold read isUnreadable reading
  cases c.kindOf? column with
  | none => exact readAs_untyped
  | some kind =>
    cases kind with
    | text => cases v <;> exact readable_iff rfl rfl
    | boolean => exact readAs_boolean hreturned
    | date => exact readAs_date
    | json => exact readAs_json hreturned

/-! ## Rows -/

/-- What a row has for a key as it is read, if the row has its column. -/
def fieldOf? (c : Codec) (row : Record) (start key : String) : Option (String × Content) :=
  (Record.get? (start ++ toSnake key) row).map fun v => (key, c.reading (toSnake key) v)

/-- Whether the value that a row has for a key can be read, if it has one. -/
def canRead (c : Codec) (row : Record) (start key : String) : Bool :=
  (Record.get? (start ++ toSnake key) row).all fun v => !c.isUnreadable (toSnake key) v

variable {row object : Record} {start : String} {cells : List (String × Content)}

/-- Cells are read exactly if each can be, and then they are the fields. -/
theorem readCells_eq_ok_iff (hrow : ∀ f ∈ row, f.2.isReturned = true) {keys : List String} :
    readCells (fun column v => c.read column (.value v)) (.record row) start keys = .ok cells ↔
      (∀ key ∈ keys, c.canRead row start key = true) ∧ cells = keys.filterMap (c.fieldOf? row start) := by
  induction keys generalizing cells with
  | nil =>
    constructor
    · intro h
      exact ⟨fun _ hkey => absurd hkey List.not_mem_nil, (Except.ok.inj h).symm⟩
    · rintro ⟨-, rfl⟩
      rfl
  | cons key rest ih =>
    rw [readCells_cons, cell, List.forall_mem_cons, List.filterMap_cons, canRead, fieldOf?]
    cases hheld : Record.get? (start ++ toSnake key) row with
    | none => simpa using ih
    | some v =>
      have hreturned : v.isReturned = true := hrow _ (Record.mem_of_get? hheld)
      have hcan : (some v).all (fun v => !c.isUnreadable (toSnake key) v) = true ↔
          c.isUnreadable (toSnake key) v = false := by simp
      simp only [bind_eq_ok, pure_eq_ok, Except.ok.injEq, exists_eq_left', read_eq_ok_iff hreturned, ih,
        hcan, Option.map_some]
      constructor
      · rintro ⟨w, ⟨hreadable, rfl⟩, _, ⟨hrest, rfl⟩, rfl⟩
        exact ⟨⟨hreadable, hrest⟩, rfl⟩
      · rintro ⟨⟨hreadable, hrest⟩, rfl⟩
        exact ⟨_, ⟨hreadable, rfl⟩, _, ⟨hrest, rfl⟩, rfl⟩

/-- The object of a row has what is read, if all of it is values. -/
theorem decodeKeys_eq_ok_iff {row : Value} {keys : List String} : c.decodeKeys row start keys = .ok object ↔
    readCells (fun column v => c.read column (.value v)) row start keys =
      .ok (object.map fun f => (f.1, .value f.2)) := by
  induction keys generalizing object with
  | nil => cases object <;> simp [decodeKeys, readCells]
  | cons key rest ih =>
    rw [decodeKeys_cons, readCells_cons]
    cases cell row (start ++ toSnake key) with
    | error e => simp [bind, Except.bind]
    | ok held =>
      cases held with
      | none => exact ih
      | some v =>
        simp only [bind_eq_ok, pure_eq_ok, Except.ok.injEq, exists_eq_left', decode_eq_ok]
        constructor
        · rintro ⟨w, hw, later, hlater, rfl⟩
          exact ⟨_, hw, _, ih.mp hlater, rfl⟩
        · rintro ⟨x, hx, later, hlater, heq⟩
          cases object with
          | nil => simp at heq
          | cons f object =>
            obtain ⟨hf, rfl⟩ := List.cons.inj heq
            obtain ⟨hkey, rfl⟩ := Prod.mk.inj hf
            exact ⟨f.2, hx, object, ih.mpr hlater, by rw [hkey]⟩

/-- What a driver returns as a row is read exactly if none of the values that the keys ask for is
one of those that cannot be read. Each key whose column is there then has the value's reading: what
the value denotes for the kind of the column or, if it denotes nothing, the value itself or whether
it counts as true. These are the fields of the object, where all of them are values. -/
theorem toObject_reads_iff (c : Codec) (start : String) (hrow : ∀ f ∈ row, f.2.isReturned = true) :
    (∀ cells, c.contents (.record row) start = .ok cells ↔
      (∀ key ∈ c.keys, c.canRead row start key = true) ∧ cells = c.keys.filterMap (c.fieldOf? row start)) ∧
    ∀ object, c.toObject (.record row) start = .ok object ↔
      c.contents (.record row) start = .ok (object.map fun f => (f.1, .value f.2)) :=
  ⟨fun _ => readCells_eq_ok_iff hrow, fun _ => decodeKeys_eq_ok_iff⟩

end

/-- A row in which nothing is what the columns are for, and yet everything is read. -/
theorem toObject_reads_strange_values :
    storyCodec.toObject (.record [("is_draft", .text "perhaps"), ("meta", .bytes [0x5b]),
        ("created_at", .int 7), ("title", .null)]) "" =
      .ok [("isDraft", .bool true), ("meta", .text "["), ("createdAt", .int 7), ("title", .null)] := by
  have hrow : ∀ f ∈ [("is_draft", Value.text "perhaps"), ("meta", .bytes [0x5b]), ("created_at", .int 7),
      ("title", .null)], f.2.isReturned = true := by decide
  have hreads := toObject_reads_iff storyCodec "" hrow
  exact (hreads.2 _).mpr ((hreads.1 _).mpr ⟨by decide, rfl⟩)

/-- A byte that is no text cannot be read as a truth value. -/
theorem toObject_not_total :
    ¬ ∀ (c : Codec) (row : Record) (start : String), (∀ f ∈ row, f.2.isReturned = true) →
      ∃ cells, c.contents (.record row) start = .ok cells := by
  intro h
  obtain ⟨cells, hcells⟩ := h ⟨["isValid"], [], [], true, true⟩ [("is_valid", .bytes [0xff])] "" (by decide)
  exact nomatch hcells

end Codec

end Quarry
