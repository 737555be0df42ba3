import Quarry.Number.Decimal
import Quarry.Text.Blank

/-!
# Reading numbers from text

Numbers in settings and result rows are read tolerantly: blanks around the number, a sign, decimal
digits of any script, and single underscores between digits. `readInt?` reads whole numbers of at
most `maxDigits` digits, `readReal?` reads numbers with a point, an exponent, or the names of the
values that are no finite number.
-/

set_option autoImplicit false

namespace Quarry.Number

/-- The most digits a whole number may have. -/
def maxDigits : Nat := 4300

/-- Write a character of a number in ASCII: other scripts' digits and blanks are replaced, anything
else stays as it is and fails later. -/
def foldNumeral (c : Char) : Char :=
  if c.toNat < 0x80 then c
  else if Text.isBlank c then ' '
  else
    match Text.digitValue? c with
    | some d => Char.ofNat ('0'.toNat + d)
    | none => c

/-- The blanks allowed around a number once it is written in ASCII. -/
def isNumeralBlank (c : Char) : Bool := c == ' ' || ('\x09' <= c && c <= '\x0d')

/-- The number in ASCII without the blanks around it. -/
def numeral (cs : List Char) : List Char :=
  Text.trimBy isNumeralBlank (cs.map foldNumeral)

/-- Drop the underscores that stand between two digits; `previous` tells whether a digit came just
before. Any other underscore spoils the number. -/
def joinDigits : Bool → List Char → Option (List Char)
  | _, [] => some []
  | previous, '_' :: rest =>
    match rest with
    | [] => none
    | c :: _ => if previous && Text.isAsciiDigit c then joinDigits false rest else none
  | _, c :: rest => (joinDigits (Text.isAsciiDigit c) rest).map (c :: ·)

/-- Read a whole number. -/
def readInt? (text : String) : Option Int := do
  let cs ← joinDigits false (numeral text.toList)
  let (s, ds) := Decimal.splitSign cs
  if ds.isEmpty || !ds.all Text.isAsciiDigit || maxDigits < ds.length then none
  else some (Exact.signedNum s (Text.asciiNat ds))

/-- Read a number from characters that are ASCII already. -/
def readRealChars? (cs : List Char) : Option Binary64 := do
  let cs ← joinDigits false cs
  let (s, body) := Decimal.splitSign cs
  let word := String.ofList (body.map Char.toLower)
  if word == "inf" || word == "infinity" then some (.infinite s)
  else if word == "nan" then some (.nan false)
  else (Decimal.readFinite? s body).map Decimal.toBinary64

/-- Read a number that may have a point and an exponent. -/
def readReal? (text : String) : Option Binary64 := readRealChars? (numeral text.toList)

end Quarry.Number
