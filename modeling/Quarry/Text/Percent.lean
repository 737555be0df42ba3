import Quarry.Text.Utf8

/-!
# Percent encoding

A percent sign with two hexadecimal digits stands for a byte. Decoding works on the bytes of the
text: encoded bytes take their places among those of the other characters, and the whole is read as
UTF-8 again, with a replacement character for what is not well-formed. A percent sign without two
digits stands for itself.
-/

set_option autoImplicit false

namespace Quarry.Text.Percent

/-- The byte for two hexadecimal digits. -/
def hexByte? (a b : UInt8) : Option UInt8 :=
  match hexValue? (Char.ofNat a.toNat), hexValue? (Char.ofNat b.toNat) with
  | some m, some n => some (UInt8.ofNat (16 * m + n))
  | _, _ => none

/-- The bytes with all encoded bytes replaced by themselves. -/
def decodeBytes : List UInt8 → List UInt8
  | 0x25 :: a :: b :: rest =>
    match hexByte? a b with
    | some byte => byte :: decodeBytes rest
    | none => 0x25 :: decodeBytes (a :: b :: rest)
  | c :: rest => c :: decodeBytes rest
  | [] => []

/-- The text that a percent-encoded text stands for. -/
def decode (cs : List Char) : List Char :=
  Utf8.decodeTolerant (decodeBytes (cs.flatMap String.utf8EncodeChar))

end Quarry.Text.Percent
