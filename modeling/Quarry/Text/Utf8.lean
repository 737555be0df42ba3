import Quarry.Text.Hex

/-!
# UTF-8

Bytes are scanned from left to right. A first byte announces how many bytes follow it and in which
range the first of them must lie; the ranges exclude overlong forms, surrogates and numbers beyond
the last character. `scan` gives a character for every well-formed sequence and a defect for every
maximal run of bytes that starts like one and breaks off. Strict decoding fails with the first
defect, tolerant decoding shows a replacement character in the place of each.
-/

set_option autoImplicit false

namespace Quarry.Text.Utf8

/-- Why bytes are no character. -/
inductive Reason where
  | startByte
  | continuationByte
  | endOfData
  deriving DecidableEq, Inhabited

namespace Reason

/-- The reason in words. -/
def text : Reason → String
  | .startByte => "invalid start byte"
  | .continuationByte => "invalid continuation byte"
  | .endOfData => "unexpected end of data"

end Reason

/-- Bytes that are no character: the first of them, its position, and how many they are. -/
structure Defect where
  byte : Nat
  position : Nat
  count : Nat
  reason : Reason
  deriving DecidableEq, Inhabited

namespace Defect

/-- Where the defect is: a single byte is shown by its number. -/
def place (d : Defect) : String :=
  if d.count <= 1 then
    "byte 0x" ++ String.ofList (hexDigits 2 d.byte) ++ " in position " ++ toString d.position
  else
    "bytes in position " ++ toString d.position ++ "-" ++ toString (d.position + d.count - 1)

/-- The defect in words. -/
def text (d : Defect) : String :=
  "'utf-8' codec can't decode " ++ d.place ++ ": " ++ d.reason.text

end Defect

/-- A sequence that has begun with `byte`: `seen` bytes of it have been read and `left` are still to
come, the next of them between `low` and `high`; those read have contributed `bits`. -/
structure Pending where
  byte : Nat
  seen : Nat
  left : Nat
  low : Nat
  high : Nat
  bits : Nat
  deriving DecidableEq

/-- What a first byte begins: a sequence of several bytes, nothing if no sequence starts so. The
bytes below 128 are characters by themselves and not asked about here. -/
def begin? (n : Nat) : Option Pending :=
  if n < 0xC2 then none
  else if n < 0xE0 then some ⟨n, 1, 1, 0x80, 0xBF, n - 0xC0⟩
  else if n == 0xE0 then some ⟨n, 1, 2, 0xA0, 0xBF, 0⟩
  else if n == 0xED then some ⟨n, 1, 2, 0x80, 0x9F, 0xD⟩
  else if n < 0xF0 then some ⟨n, 1, 2, 0x80, 0xBF, n - 0xE0⟩
  else if n == 0xF0 then some ⟨n, 1, 3, 0x90, 0xBF, 0⟩
  else if n < 0xF4 then some ⟨n, 1, 3, 0x80, 0xBF, n - 0xF0⟩
  else if n == 0xF4 then some ⟨n, 1, 3, 0x80, 0x8F, 4⟩
  else none

/-- The defect of a sequence that breaks off in front of a position. -/
def broken (p : Pending) (position : Nat) (reason : Reason) : Except Defect Char :=
  .error ⟨p.byte, position - p.seen, p.seen, reason⟩

/-- The defect of a byte at a position with which no sequence starts. -/
def stray (n position : Nat) : Except Defect Char := .error ⟨n, position, 1, .startByte⟩

/-- The characters and defects of a byte string whose first byte has the given position. -/
def scan : Nat → Option Pending → List UInt8 → List (Except Defect Char)
  | _, none, [] => []
  | i, some p, [] => [broken p i .endOfData]
  | i, none, b :: rest =>
    let n := b.toNat
    if n < 0x80 then .ok (Char.ofNat n) :: scan (i + 1) none rest
    else
      match begin? n with
      | none => stray n i :: scan (i + 1) none rest
      | some p => scan (i + 1) (some p) rest
  | i, some p, b :: rest =>
    let n := b.toNat
    if p.low <= n && n <= p.high then
      let bits := p.bits * 64 + n % 64
      if p.left <= 1 then .ok (Char.ofNat bits) :: scan (i + 1) none rest
      else scan (i + 1) (some ⟨p.byte, p.seen + 1, p.left - 1, 0x80, 0xBF, bits⟩) rest
    else if n < 0x80 then
      broken p i .continuationByte :: .ok (Char.ofNat n) :: scan (i + 1) none rest
    else
      match begin? n with
      | none => broken p i .continuationByte :: stray n i :: scan (i + 1) none rest
      | some q => broken p i .continuationByte :: scan (i + 1) (some q) rest

/-- The text of a byte string, or the first of its defects. -/
def decode (data : List UInt8) : Except Defect String :=
  ((scan 0 none data).mapM id).map String.ofList

/-- The character shown in place of a defect. -/
def replacement : Char := '\uFFFD'

/-- The characters of a byte string with every defect replaced. -/
def decodeTolerant (data : List UInt8) : List Char :=
  (scan 0 none data).map fun c =>
    match c with
    | .ok c => c
    | .error _ => replacement

end Quarry.Text.Utf8
