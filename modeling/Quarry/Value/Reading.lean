import Quarry.Value.Content
import Quarry.Value.Equality
import Quarry.Text.Utf8

/-!
# Reading stored values

Columns hold truth values, moments and JSON in several forms. The readers here accept all of them:
`readFlag` knows the usual spellings of true and false and falls back to whether the value counts as
true, `readMoment` knows the stored and the standard form of moments, and `readJson` knows JSON text
of a container, also when it was turned into a JSON text once more. Where a text is none of these,
it stays as it is.
-/

set_option autoImplicit false

namespace Quarry.Value

/-- The text of a byte string. -/
def textOfBytes (data : List UInt8) : Except Error String :=
  match Text.Utf8.decode data with
  | .ok s => .ok s
  | .error defect => misfit (.bytes defect)

/-- The texts that mean true. -/
def trueTexts : List String := ["1", "true", "TRUE", "True"]

/-- The texts that mean false. -/
def falseTexts : List String := ["0", "false", "FALSE", "False", ""]

/-- The truth value that a text stands for; any other text counts as true. -/
def flagOfText (s : String) : Bool := trueTexts.contains s || !falseTexts.contains s

/-- The truth value that a stored value stands for. NULL stays NULL. A byte string is a number if it
is a single byte of at most 1, and a text otherwise. -/
def readFlag : Value → Except Error (Option Bool)
  | .null => .ok none
  | .bytes [b] =>
    if b.toNat <= 1 then .ok (some (b.toNat == 1))
    else (textOfBytes [b]).map fun s => some (flagOfText s)
  | .bytes data => (textOfBytes data).map fun s => some (flagOfText s)
  | .text s => .ok (some (flagOfText s))
  | .decimal d => if isFixed (.decimal d) then .ok (some (isTrue (.decimal d))) else misfit .kind
  | v => .ok (some v.isTrue)

/-- A moment as it is read: moved to UTC with `utc`, as it is otherwise. -/
def placeMoment (utc : Bool) (m : Time.Moment) : Except Error Value :=
  if utc then
    match m.toUtc? with
    | some u => .ok (.moment u)
    | none => misfit (.range .date)
  else .ok (.moment m)

/-- The moment that a stored value denotes; any other value stays as it is. -/
def readMoment (utc : Bool) : Value → Except Error Value
  | .text s =>
    match Time.Moment.ofStored? s with
    | some m => placeMoment utc m
    | none => .ok (.text s)
  | .moment m => placeMoment utc m
  | v => .ok v

end Quarry.Value

namespace Quarry.Content

variable [Limits]

/-- The container that JSON text denotes if it starts like one. -/
def containerOf (gs : List Json.Glyph) : Except Json.Unread Json.Tree :=
  match gs with
  | .char '\x7b' :: _ => Json.read gs
  | .char '[' :: _ => Json.read gs
  | _ => .error .malformed

/-- The container whose JSON text a text is, be it as it stands or in quotes. -/
def containerIn (gs : List Json.Glyph) : Except Json.Unread Json.Tree :=
  match Json.readQuoted? gs with
  | some inner => containerOf (Text.trimBy (Json.Glyph.any Text.isBlank) inner)
  | none => containerOf gs

/-- What came of reading JSON text; nothing if the text was none. -/
def ofRead (result : Except Json.Unread Json.Tree) : Except Error (Option Content) :=
  match result with
  | .ok t => .ok (some (.ofTree t))
  | .error .malformed => .ok none
  | .error (.tooDeep object) => misfit (.depth object)

/-- The record or list whose JSON text a text is; any other text stays as it is. -/
def readJson (gs : List Json.Glyph) : Except Error Content := do
  let read ← ofRead (containerIn (Text.trimBy (Json.Glyph.any Text.isBlank) gs))
  return read.getD (.ofGlyphs gs)

/-- What a text denotes as JSON text. A text that is no JSON text may still be that of a container
inside a text. -/
def readJsonText (gs : List Json.Glyph) : Except Error Content := do
  match ← ofRead (Json.read gs) with
  | some read => return read
  | none => readJson gs

end Quarry.Content

namespace Quarry.Value

/-- The record or list whose JSON text a text is; any other text stays as it is. -/
def readJson [Limits] (s : String) : Except Error Value := do
  (← Content.readJson (Json.glyphs s.toList)).toValue

end Quarry.Value
