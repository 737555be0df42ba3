import Quarry.Json.Basic
import Quarry.Limits
import Quarry.Number.Read
import Quarry.Text.Hex

/-!
# Reading JSON text

A reader for the grammar of JSON, extended by the names of the special floating-point values. Each
function reads its part at the start of the remaining characters and returns what is left. Reading
goes down one step of fuel at every value and at every item or field, so a text half as long as its
fuel is always read to the end (`readGlyphs`).

Characters beyond the basic plane may be written as pairs of escaped code units. Half of a pair that
stands alone is read as such.

Containers stand inside of each other up to a depth. One that stands deeper ends the reading at
once.
-/

set_option autoImplicit false

namespace Quarry.Json

open Number (Binary64)
open Text (hexValue?)

/-- Why JSON text was not read. -/
inductive Unread where
  /-- It does not have the form of JSON text. -/
  | malformed
  /-- It has an array or, with `object`, an object at too great a depth. -/
  | tooDeep (object : Bool)
  deriving DecidableEq

/-! ## Texts -/

/-- The characters allowed between the parts of JSON text. -/
def isSpace (c : Char) : Bool := c == ' ' || c == '\t' || c == '\n' || c == '\r'

/-- What is left after leading space. -/
def skipSpace (gs : List Glyph) : List Glyph := gs.dropWhile fun g => g.any isSpace

/-- Four hexadecimal digits as a number. -/
def hexUnit? (a b c d : Glyph) : Option Nat := do
  let w ← a.char?.bind hexValue?
  let x ← b.char?.bind hexValue?
  let y ← c.char?.bind hexValue?
  let z ← d.char?.bind hexValue?
  return ((w * 16 + x) * 16 + y) * 16 + z

/-- The character that a backslash and a letter stand for. -/
def unescape? (c : Char) : Option Char :=
  if c == '"' || c == '\\' || c == '/' then some c
  else if c == 'b' then some '\x08'
  else if c == 'f' then some '\x0c'
  else if c == 'n' then some '\n'
  else if c == 'r' then some '\r'
  else if c == 't' then some '\t'
  else none

/-- A part of a text in quotes: a glyph, or an escaped code unit. -/
inductive TextPart where
  | glyph (g : Glyph)
  | unit (n : Nat)

/-- The parts of a text up to its closing quote, and what follows it. -/
def readParts? : List Glyph → Option (List TextPart × List Glyph)
  | [] => none
  | .char '"' :: rest => some ([], rest)
  | .char '\\' :: .char 'u' :: a :: b :: c :: d :: rest =>
    match hexUnit? a b c d with
    | some n => (readParts? rest).map fun (ps, r) => (.unit n :: ps, r)
    | none => none
  | .char '\\' :: .char c :: rest =>
    match unescape? c with
    | some e => (readParts? rest).map fun (ps, r) => (.glyph (.char e) :: ps, r)
    | none => none
  | g :: rest =>
    if g.any fun c => c.toNat < 0x20 || c == '\\' then none
    else (readParts? rest).map fun (ps, r) => (.glyph g :: ps, r)

/-- Whether a code unit is the first half of a pair. -/
def isHighHalf (n : Nat) : Bool := 0xD800 <= n && n < 0xDC00

/-- Whether a code unit is the second half of a pair. -/
def isLowHalf (n : Nat) : Bool := 0xDC00 <= n && n < 0xE000

/-- The character of a pair of code units. -/
def pairChar (high low : Nat) : Char :=
  Char.ofNat (0x10000 + (high - 0xD800) * 0x400 + (low - 0xDC00))

/-- The glyph of a code unit that stands alone. -/
def unitGlyph (n : Nat) : Glyph :=
  if isHighHalf n || isLowHalf n then .half (Fin.ofNat 0x800 (n - 0xD800)) else .char (Char.ofNat n)

/-- The glyphs of parts, pairs of code units put together. -/
def joinUnits : List TextPart → List Glyph
  | [] => []
  | .glyph g :: rest => g :: joinUnits rest
  | .unit h :: .unit l :: rest =>
    if isHighHalf h && isLowHalf l then .char (pairChar h l) :: joinUnits rest
    else unitGlyph h :: joinUnits (.unit l :: rest)
  | .unit n :: rest => unitGlyph n :: joinUnits rest

/-- The glyphs of a text up to its closing quote, and what follows it. -/
def readText? (gs : List Glyph) : Option (List Glyph × List Glyph) :=
  (readParts? gs).map fun (ps, r) => (joinUnits ps, r)

/-! ## Numbers and words -/

/-- The ASCII digits at the start, and what follows them. -/
def takeDigits : List Glyph → List Char × List Glyph
  | .char c :: rest =>
    if Text.isAsciiDigit c then ((takeDigits rest).map (c :: ·) id) else ([], .char c :: rest)
  | gs => ([], gs)

/-- The digits of a whole number at the start: a single zero, or digits that start with no zero. -/
def takeWhole? : List Glyph → Option (List Char × List Glyph)
  | .char '0' :: rest => some (['0'], rest)
  | gs =>
    let (ds, rest) := takeDigits gs
    if ds.isEmpty then none else some (ds, rest)

/-- A point and at least one digit at the start, if they are there: the digits, and what follows. -/
def takeFraction (gs : List Glyph) : List Char × List Glyph :=
  match gs with
  | .char '.' :: behind =>
    let (ds, rest) := takeDigits behind
    if ds.isEmpty then ([], gs) else (ds, rest)
  | _ => ([], gs)

/-- A sign at the start, if there is one: whether it is a minus, and what follows. -/
def takeSign : List Glyph → Bool × List Glyph
  | .char '-' :: rest => (true, rest)
  | .char '+' :: rest => (false, rest)
  | gs => (false, gs)

/-- An exponent at the start, if there is one. -/
def takeExponent (gs : List Glyph) : Option Int × List Glyph :=
  match gs with
  | .char c :: behind =>
    if c == 'e' || c == 'E' then
      let (negative, body) := takeSign behind
      let (ds, rest) := takeDigits body
      if ds.isEmpty then (none, gs)
      else (some (Number.Exact.signedNum negative (Text.asciiNat ds)), rest)
    else (none, gs)
  | _ => (none, gs)

/-- A number at the start; without fraction and exponent it is an integer, which may not have too
many digits. -/
def readNumber? (negative : Bool) (gs : List Glyph) : Option (Tree × List Glyph) := do
  let (whole, rest) ← takeWhole? gs
  let (fraction, rest) := takeFraction rest
  let (exponent?, rest) := takeExponent rest
  if fraction.isEmpty && exponent?.isNone then
    if Number.maxDigits < whole.length then none
    else return (.int (Number.Exact.signedNum negative (Text.asciiNat whole)), rest)
  else
    let coefficient := Text.asciiNat (whole ++ fraction)
    let exponent := exponent?.getD 0 - fraction.length
    return (.real (Binary64.ofScientific negative coefficient exponent), rest)

/-- What follows a word at the start. -/
def takeWord? : List Char → List Glyph → Option (List Glyph)
  | [], gs => some gs
  | _ :: _, [] => none
  | w :: ws, g :: gs => if g = .char w then takeWord? ws gs else none

/-- A value that is neither text nor container. -/
def readScalar? (gs : List Glyph) : Option (Tree × List Glyph) :=
  match gs with
  | .char 'n' :: _ => (takeWord? "null".toList gs).map (.null, ·)
  | .char 't' :: _ => (takeWord? "true".toList gs).map (.bool true, ·)
  | .char 'f' :: _ => (takeWord? "false".toList gs).map (.bool false, ·)
  | .char 'N' :: _ => (takeWord? "NaN".toList gs).map (.real (.nan true), ·)
  | .char 'I' :: _ => (takeWord? "Infinity".toList gs).map (.real (.infinite false), ·)
  | .char '-' :: .char 'I' :: _ => (takeWord? "-Infinity".toList gs).map (.real (.infinite true), ·)
  | .char '-' :: rest => readNumber? true rest
  | _ => readNumber? false gs

/-! ## Values -/

/-- A part that must be there. -/
def required {α : Type} : Option α → Except Unread α
  | some a => .ok a
  | none => .error .malformed

mutual

/-- A value at the start, with room for a number of containers inside of each other. -/
def readValue : Nat → Nat → List Glyph → Except Unread (Tree × List Glyph)
  | 0, _, _ => .error .malformed
  | fuel + 1, room, gs =>
    match gs, room with
    | .char '"' :: rest, _ => do
      let (t, rest) ← required (readText? rest)
      return (.text t, rest)
    | .char '[' :: _, 0 => .error (.tooDeep false)
    | .char '[' :: rest, room + 1 =>
      match skipSpace rest with
      | .char ']' :: rest => .ok (.array [], rest)
      | rest => do
        let (items, rest) ← readItems fuel room rest
        return (.array items, rest)
    | .char '\x7b' :: _, 0 => .error (.tooDeep true)
    | .char '\x7b' :: rest, room + 1 =>
      match skipSpace rest with
      | .char '\x7d' :: rest => .ok (.object [], rest)
      | rest => do
        let (fields, rest) ← readFields fuel room rest
        return (.object (keepLast fields), rest)
    | _, _ => required (readScalar? gs)

/-- Items up to the closing bracket. -/
def readItems : Nat → Nat → List Glyph → Except Unread (List Tree × List Glyph)
  | 0, _, _ => .error .malformed
  | fuel + 1, room, gs => do
    let (v, rest) ← readValue fuel room gs
    match skipSpace rest with
    | .char ',' :: rest =>
      let (vs, rest) ← readItems fuel room (skipSpace rest)
      return (v :: vs, rest)
    | .char ']' :: rest => return ([v], rest)
    | _ => .error .malformed

/-- Fields up to the closing brace. -/
def readFields : Nat → Nat → List Glyph → Except Unread (List (List Glyph × Tree) × List Glyph)
  | 0, _, _ => .error .malformed
  | fuel + 1, room, gs =>
    match gs with
    | .char '"' :: rest => do
      let (k, rest) ← required (readText? rest)
      match skipSpace rest with
      | .char ':' :: rest =>
        let (v, rest) ← readValue fuel room (skipSpace rest)
        match skipSpace rest with
        | .char ',' :: rest =>
          let (fs, rest) ← readFields fuel room (skipSpace rest)
          return ((k, v) :: fs, rest)
        | .char '\x7d' :: rest => return ([(k, v)], rest)
        | _ => .error .malformed
      | _ => .error .malformed
    | _ => .error .malformed

end

/-- Read a whole text, with space around the value. -/
def read [Limits] (gs : List Glyph) : Except Unread Tree := do
  let (v, rest) ← readValue (2 * gs.length + 1) Limits.depth (skipSpace gs)
  if (skipSpace rest).isEmpty then return v else .error .malformed

/-- The text that a whole JSON text denotes. -/
def readQuoted? : List Glyph → Option (List Glyph)
  | .char '"' :: rest => do
    let (t, rest) ← readText? rest
    if (skipSpace rest).isEmpty then some t else none
  | _ => none

end Quarry.Json
