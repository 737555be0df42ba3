/-!
# Hexadecimal digits

Numbers are written in base 16 with lower-case letters and leading zeros up to a width. Digits are
read in either case.
-/

set_option autoImplicit false

namespace Quarry.Text

/-- The digits of a number in base 16, at least `width` of them. -/
def hexDigits (width n : Nat) : List Char :=
  let ds := Nat.toDigits 16 n
  List.replicate (width - ds.length) '0' ++ ds

/-- The value of a hexadecimal digit. -/
def hexValue? (c : Char) : Option Nat :=
  if '0' <= c && c <= '9' then some (c.toNat - 0x30)
  else if 'a' <= c && c <= 'f' then some (c.toNat - 0x57)
  else if 'A' <= c && c <= 'F' then some (c.toNat - 0x37)
  else none

end Quarry.Text
