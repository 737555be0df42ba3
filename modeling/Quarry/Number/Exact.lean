/-!
# Exact values

Numbers of different kinds (integers, binary64 numbers, decimals) meet in one exact form: a signed
integer times a power of ten, extended by the two infinities and by an undefined value. Every finite
number of every kind has that form, since a half is five tenths. Comparison between kinds is
comparison of these exact values, so no rounding can make two different numbers equal. Numbers are
compared by their number of digits first, so an exponent may be huge.
-/

set_option autoImplicit false

namespace Quarry.Number

/-- The fraction `m · base ^ e` as numerator and denominator. -/
def scaled (m base : Nat) (e : Int) : Nat × Nat :=
  if e < 0 then (m, Nat.pow base e.natAbs) else (m * Nat.pow base e.toNat, 1)

/-- The integer nearest to `n / d`; a tie goes to the even neighbour. -/
def roundHalfEven (n d : Nat) : Nat :=
  let q := n / d
  let r := n % d
  if d < 2 * r || (2 * r == d && q % 2 == 1) then q + 1 else q

/-- How many decimal digits a number has; zero has one. -/
def digitCount (n : Nat) : Nat := (Nat.toDigits 10 n).length

/-- The exact value of a number. -/
inductive Exact where
  | undefined
  | infinite (negative : Bool)
  /-- The number `± coefficient · 10 ^ exponent`. -/
  | finite (negative : Bool) (coefficient : Nat) (exponent : Int)

namespace Exact

/-- The exact value of an integer. -/
def ofInt (n : Int) : Exact := .finite (decide (n < 0)) n.natAbs 0

/-- A natural number with a sign. -/
def signedNum (negative : Bool) (num : Nat) : Int := if negative then -(num : Int) else num

/-- The coefficient of `c · 10 ^ e` when the exponent is lowered to `low`. -/
def lowered (c : Nat) (e low : Int) : Nat := c * Nat.pow 10 (e - low).toNat

/-- The order of `c · 10 ^ e` and `c' · 10 ^ e'`. -/
def compareSizes (c : Nat) (e : Int) (c' : Nat) (e' : Int) : Ordering :=
  if e == e' || c == 0 || c' == 0 then compare c c'
  else
    let size := e + digitCount c
    let size' := e' + digitCount c'
    if size == size' then compare (lowered c e (min e e')) (lowered c' e' (min e e'))
    else compare size size'

/-- The order of two values; an undefined value has none, not even with itself. -/
def compare? : Exact → Exact → Option Ordering
  | .undefined, _ => none
  | _, .undefined => none
  | .infinite a, .infinite b => some (compare b a)
  | .infinite a, .finite .. => some (if a then .lt else .gt)
  | .finite .., .infinite b => some (if b then .gt else .lt)
  | .finite a c e, .finite b c' e' =>
    match a && c != 0, b && c' != 0 with
    | true, false => some .lt
    | false, true => some .gt
    | false, false => some (compareSizes c e c' e')
    | true, true => some (compareSizes c' e' c e)

/-- Equality of values; an undefined value equals nothing, not even itself. -/
def equal (x y : Exact) : Bool := x.compare? y == some .eq

/-- Whether the value is zero. -/
def isZero : Exact → Bool
  | .finite _ c _ => c == 0
  | _ => false

/-- The difference of two values; `infinity - infinity` of one sign is undefined. -/
def sub : Exact → Exact → Exact
  | .undefined, _ => .undefined
  | _, .undefined => .undefined
  | .infinite a, .infinite b => if a == b then .undefined else .infinite a
  | .infinite a, .finite .. => .infinite a
  | .finite .., .infinite b => .infinite !b
  | .finite a c e, .finite b c' e' =>
    let low := min e e'
    let top := signedNum a (lowered c e low) - signedNum b (lowered c' e' low)
    .finite (decide (top < 0)) top.natAbs low

/-- The product of two values; `0 · infinity` is undefined. -/
def mul : Exact → Exact → Exact
  | .undefined, _ => .undefined
  | _, .undefined => .undefined
  | .infinite a, .infinite b => .infinite (a != b)
  | .infinite a, .finite b c _ => if c == 0 then .undefined else .infinite (a != b)
  | .finite a c _, .infinite b => if c == 0 then .undefined else .infinite (a != b)
  | .finite a c e, .finite b c' e' => .finite (a != b) (c * c') (e + e')

end Exact

end Quarry.Number
