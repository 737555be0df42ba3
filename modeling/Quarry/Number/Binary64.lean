import Quarry.Number.Exact

/-!
# Binary64 numbers

Floating-point numbers with a 53-bit significand, represented by what they mean and not by their
bits: `finite negative mantissa exponent` is `± mantissa · 2 ^ exponent`. Every number is built by
rounding an exact fraction to the nearest representable one (`ofFraction`), ties to the even
mantissa, so that each representable value has a single form: the mantissa has exactly 53 bits, or
fewer at the lowest exponent. All arithmetic is exact arithmetic followed by that one rounding.
-/

set_option autoImplicit false

namespace Quarry.Number

/-- A floating-point number; zero has a sign. Values that are no number arise anew wherever they
arise, but the one that JSON text names is always the same (`constant`). -/
inductive Binary64 where
  | nan (constant : Bool)
  | infinite (negative : Bool)
  | finite (negative : Bool) (mantissa : Nat) (exponent : Int)
  deriving DecidableEq

namespace Binary64

/-- The exponent of the smallest numbers. -/
def minExponent : Int := -1074

/-- The exponent of the largest numbers. -/
def maxExponent : Int := 971

/-- Zero with a sign. -/
def zero (negative : Bool) : Binary64 := .finite negative 0 minExponent

/-- The exponent at which the positive fraction `num / den` has a mantissa of 53 bits, raised to the
lowest exponent where it would be below. -/
def exponentFor (num den : Nat) : Int :=
  let guess : Int := (Nat.log2 num : Int) - Nat.log2 den - 52
  let (n, d) := scaled num 2 (-guess)
  let fit := if n < d * den * Nat.pow 2 52 then guess - 1 else guess
  if fit < minExponent then minExponent else fit

/-- The number nearest to the fraction `num / den`. -/
def ofFraction (negative : Bool) (num den : Nat) : Binary64 :=
  if num = 0 then zero negative
  else
    let e := exponentFor num den
    let (n, d) := scaled num 2 (-e)
    let m := roundHalfEven n (d * den)
    let (m, e) := if m = Nat.pow 2 53 then (Nat.pow 2 52, e + 1) else (m, e)
    if maxExponent < e then .infinite negative else .finite negative m e

/-- The number nearest to `± coefficient · 10 ^ exponent`. Numbers beyond all finite ones and
numbers below half of the smallest are recognized by their magnitude alone, so a huge exponent costs
nothing. -/
def ofScientific (negative : Bool) (coefficient : Nat) (exponent : Int) : Binary64 :=
  if coefficient = 0 then zero negative
  else
    let magnitude := exponent + digitCount coefficient
    if 310 < magnitude then .infinite negative
    else if magnitude < -330 then zero negative
    else
      let (n, d) := scaled coefficient 10 exponent
      ofFraction negative n d

/-- The number nearest to an integer. -/
def ofInt (n : Int) : Binary64 := ofFraction (decide (n < 0)) n.natAbs 1

/-- The exact value. A power of two below 1 is as many powers of five, shifted. -/
def exact : Binary64 → Exact
  | .nan _ => .undefined
  | .infinite s => .infinite s
  | .finite s m e =>
    if e < 0 then .finite s (m * Nat.pow 5 e.natAbs) e else .finite s (m * Nat.pow 2 e.toNat) 0

/-- The number nearest to an exact value. -/
def ofExact : Exact → Binary64
  | .undefined => .nan false
  | .infinite s => .infinite s
  | .finite s c e => ofScientific s c e

/-- Whether the number is finite. -/
def isFinite : Binary64 → Bool
  | .finite .. => true
  | _ => false

/-- The integer that the number is, if it is one. -/
def toInt? : Binary64 → Option Int
  | .finite s m e =>
    let (n, d) := scaled m 2 e
    if n % d == 0 then some (Exact.signedNum s (n / d)) else none
  | _ => none

/-- The whole part of a finite number, its fraction cut off. -/
def truncate? : Binary64 → Option Int
  | .finite s m e =>
    let (n, d) := scaled m 2 e
    some (Exact.signedNum s (n / d))
  | _ => none

/-- The difference, rounded. -/
def sub (a b : Binary64) : Binary64 := ofExact (a.exact.sub b.exact)

/-- The product, rounded. -/
def mul (a b : Binary64) : Binary64 := ofExact (a.exact.mul b.exact)

end Binary64

end Quarry.Number
