import Quarry.Value.Literal

/-!
# Failed conversions of text

Bytes that cannot be decoded, text that cannot be encoded and characters that cannot be translated
are reported together with the place where the conversion stopped. A single byte or character is
shown, and of more only the positions are told.
-/

set_option autoImplicit false

namespace Quarry

/-- A conversion that failed between two positions. -/
structure CodingFault where
  /-- The name of the encoding, if there is one. -/
  codec : Option String
  /-- What was to be done. -/
  verb : String
  /-- What it was to be done to, one at a time. -/
  noun : String
  /-- How each of them is shown. -/
  items : List String
  first : Int
  past : Int
  reason : String

namespace CodingFault

/-- Characters as they are shown. -/
def showChars (s : String) : List String :=
  s.toList.map fun c => "'" ++ String.ofList (Value.escapeCode c) ++ "'"

/-- Bytes as they are shown. -/
def showBytes (data : List UInt8) : List String :=
  data.map fun b => "0x" ++ String.ofList (Text.hexDigits 2 b.toNat)

/-- The failed conversion that a name and arguments describe. -/
def ofArgs? (name : String) (args : List Value) : Option CodingFault :=
  match name, args with
  | "UnicodeDecodeError", [.text codec, data, first, past, .text reason] => do
    let bytes ← match data with
      | .bytes bytes => some bytes
      | .buffer bytes => some bytes
      | _ => none
    return ⟨codec, "decode", "byte", showBytes bytes, ← first.integer?, ← past.integer?, reason⟩
  | "UnicodeEncodeError", [.text codec, .text s, first, past, .text reason] => do
    return ⟨codec, "encode", "character", showChars s, ← first.integer?, ← past.integer?, reason⟩
  | "UnicodeTranslateError", [.text s, first, past, .text reason] => do
    return ⟨none, "translate", "character", showChars s, ← first.integer?, ← past.integer?, reason⟩
  | _, _ => none

/-- The names of failed conversions. -/
def names : List String := ["UnicodeDecodeError", "UnicodeEncodeError", "UnicodeTranslateError"]

/-- The only item at which the conversion stopped. -/
def single? (c : CodingFault) : Option String :=
  if 0 <= c.first && c.past == c.first + 1 then c.items[c.first.toNat]? else none

/-- The place where the conversion stopped. -/
def place (c : CodingFault) : String :=
  match c.single? with
  | some item => c.noun ++ " " ++ item ++ " in position " ++ toString c.first
  | none => c.noun ++ "s in position " ++ toString c.first ++ "-" ++ toString (c.past - 1)

/-- The failure in words. -/
def message (c : CodingFault) : String :=
  ((c.codec.map fun name => "'" ++ name ++ "' codec ").getD "") ++ "can't " ++ c.verb ++ " " ++
    c.place ++ ": " ++ c.reason

end CodingFault

end Quarry
