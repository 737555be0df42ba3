import Quarry.Number.Shortest
import Quarry.Text.Digit

/-!
# Decimal numbers

Decimal floating-point numbers of any length: `± coefficient · 10 ^ exponent` with the exponent kept
as written, so `1.50` and `1.5` are equal in value and differ in text. The text is positional as
long as the number has no trailing zeros to add and at most six leading ones, and has an exponent
otherwise.

The results of calculations are shorter than the numbers themselves may be: they are rounded to
`precision` digits, and their exponents are limited.
-/

set_option autoImplicit false

namespace Quarry.Number

/-- A decimal number. A value that is no number may be signalling and may carry digits. -/
inductive Decimal where
  | finite (negative : Bool) (coefficient : Nat) (exponent : Int)
  | infinite (negative : Bool)
  | nan (negative signaling : Bool) (payload : String)
  deriving DecidableEq

namespace Decimal

/-- The exact value. -/
def exact : Decimal → Exact
  | .finite s c e => .finite s c e
  | .infinite s => .infinite s
  | .nan .. => .undefined

/-- Whether the value is no number and says so wherever it is used. -/
def isSignaling : Decimal → Bool
  | .nan _ signaling _ => signaling
  | _ => false

/-- Whether the number is infinite. -/
def isInfinite : Decimal → Bool
  | .infinite _ => true
  | _ => false

/-- Whether the number is zero. -/
def isZero : Decimal → Bool
  | .finite _ c _ => c == 0
  | _ => false

/-- The nearest binary64 number. -/
def toBinary64 : Decimal → Binary64
  | .finite s c e => .ofScientific s c e
  | .infinite s => .infinite s
  | .nan .. => .nan false

/-- The part of `c · 10 ^ e` before the point. A number with more places behind the point than it
has digits is below 1. -/
def wholePart (c : Nat) (e : Int) : Nat :=
  if c == 0 || e + digitCount c <= 0 then 0
  else if e < 0 then c / Nat.pow 10 e.natAbs
  else c * Nat.pow 10 e.toNat

/-- The whole part of a finite number, its fraction cut off. -/
def truncate? : Decimal → Option Int
  | .finite s c e => some (Exact.signedNum s (wholePart c e))
  | _ => none

/-- Whether a finite number is an integer. Digits behind the point must all be zeros, and a number
with more places behind the point than it has digits is no integer unless it is zero. -/
def isWhole : Decimal → Bool
  | .finite _ c e =>
    c == 0 || 0 <= e || (0 < e + digitCount c && c % Nat.pow 10 e.natAbs == 0)
  | _ => false

/-- The most digits of a calculated number. -/
def precision : Nat := 28

/-- The power of ten that the leading digits of calculated numbers stay below or reach. -/
def largestPower : Int := 999999

/-- The power of ten of the last digit of the smallest calculated numbers. -/
def lowestPower : Int := -largestPower - precision + 1

/-- Raise the exponent of `c · 10 ^ e` to `low`, if it is below, and round the coefficient. -/
def raised (c : Nat) (e low : Int) : Nat × Int :=
  if low <= e then (c, e)
  else
    let places := low - e
    (if digitCount c + 1 < places then 0 else roundHalfEven c (Nat.pow 10 places.toNat), low)

/-- The calculated number `± c · 10 ^ e`, rounded, or nothing if it is too large. Rounding up to one
more digit leaves a zero at the end, which is dropped. -/
def calculated? (negative : Bool) (c : Nat) (e : Int) : Option Decimal :=
  if c == 0 then some (.finite negative 0 (max lowestPower (min e largestPower)))
  else
    let (c, e) := raised c e (max lowestPower (e + digitCount c - precision))
    let (c, e) := if precision < digitCount c then (c / 10, e + 1) else (c, e)
    if largestPower < e + digitCount c - 1 then none else some (.finite negative c e)

/-- The product with a natural number, or nothing if it is too large. -/
def times? (d : Decimal) (n : Nat) : Option Decimal :=
  match d with
  | .finite s c e => calculated? s (c * n) e
  | d => some d

/-- The power of ten below which numbers are too small to be told apart when they are added to or
taken from `c · 10 ^ e`: whatever their size is, the result is rounded to the same number. -/
def reach (c : Nat) (e : Int) : Int := e + min (-1) ((digitCount c : Int) - precision - 2)

/-- The number `c · 10 ^ e`, or, if it is below a power of ten, that power instead. -/
def broughtUp (c : Nat) (e low : Int) : Nat × Int :=
  if e + digitCount c <= low then (1, low) else (c, e)

/-- The difference of `± c · 10 ^ e` and `± c' · 10 ^ e'`, neither of them zero, before it is
rounded. The number with the smaller exponent is brought up first, so exponents may be far apart. -/
def difference (s : Bool) (c : Nat) (e : Int) (s' : Bool) (c' : Nat) (e' : Int) : Exact :=
  let (d, f) := if e < e' then broughtUp c e (reach c' e') else (c, e)
  let (d', f') := if e' < e then broughtUp c' e' (reach c e) else (c', e')
  (Exact.finite s d f).sub (.finite s' d' f')

/-- The difference, or nothing if it is too large. -/
def minus? (a b : Decimal) : Option Decimal :=
  match a, b with
  | .nan .., _ => some a
  | _, .nan .. => some b
  | .infinite s, .infinite s' => if s == s' then none else some a
  | .infinite _, _ => some a
  | _, .infinite s' => some (.infinite !s')
  | .finite s c e, .finite s' c' e' =>
    if c' == 0 then calculated? s c e
    else if c == 0 then calculated? (!s') c' e'
    else
      match difference s c e s' c' e' with
      | .finite r d f => calculated? r d f
      | _ => none

/-- The decimal number that an integer is. -/
def ofInt (n : Int) : Decimal := .finite (decide (n < 0)) n.natAbs 0

/-- An integer with its sign always shown. -/
def signedExponent (e : Int) : List Char :=
  (if e < 0 then '-' else '+') :: Nat.toDigits 10 e.natAbs

/-- The text of `coefficient · 10 ^ exponent` without its sign. -/
def digitsText (c : Nat) (e : Int) : List Char :=
  let ds := Nat.toDigits 10 c
  let left := e + ds.length
  let place := if e <= 0 && -6 < left then left else 1
  let body :=
    if place <= 0 then '0' :: '.' :: (zeros (-place).toNat ++ ds)
    else if (ds.length : Int) <= place then ds ++ zeros (place.toNat - ds.length)
    else ds.take place.toNat ++ '.' :: ds.drop place.toNat
  if left == place then body else body ++ 'E' :: signedExponent (left - place)

/-- The text of a decimal number. -/
def text : Decimal → String
  | .finite s c e => String.ofList (Binary64.signed s (digitsText c e))
  | .infinite s => String.ofList (Binary64.signed s "Infinity".toList)
  | .nan s signaling payload =>
    String.ofList (Binary64.signed s ((if signaling then "sNaN" else "NaN") ++ payload).toList)

/-- Split a sign off a text. -/
def splitSign : List Char → Bool × List Char
  | '-' :: rest => (true, rest)
  | '+' :: rest => (false, rest)
  | rest => (false, rest)

/-- An integer written with ASCII digits and an optional sign. -/
def readExponent? (cs : List Char) : Option Int :=
  let (s, ds) := splitSign cs
  if ds.isEmpty || !ds.all Text.isAsciiDigit then none
  else some (Exact.signedNum s (Text.asciiNat ds))

/-- Read digits with an optional point and an optional exponent. -/
def readFinite? (negative : Bool) (cs : List Char) : Option Decimal :=
  let whole := cs.takeWhile Text.isAsciiDigit
  let rest := cs.dropWhile Text.isAsciiDigit
  let (fraction, rest) :=
    match rest with
    | '.' :: r => (r.takeWhile Text.isAsciiDigit, r.dropWhile Text.isAsciiDigit)
    | r => ([], r)
  if whole.isEmpty && fraction.isEmpty then none
  else
    let exponent? : Option Int :=
      match rest with
      | [] => some 0
      | c :: r => if c == 'e' || c == 'E' then readExponent? r else none
    exponent?.map fun e =>
      .finite negative (Text.asciiNat (whole ++ fraction)) (e - fraction.length)

/-- Read the text of a decimal number. -/
def ofText? (t : String) : Option Decimal :=
  let (s, cs) := splitSign t.toList
  let word := String.ofList (cs.map Char.toLower)
  if word == "infinity" || word == "inf" then some (.infinite s)
  else if word.startsWith "nan" && (cs.drop 3).all Text.isAsciiDigit then
    some (.nan s false (String.ofList (cs.drop 3)))
  else if word.startsWith "snan" && (cs.drop 4).all Text.isAsciiDigit then
    some (.nan s true (String.ofList (cs.drop 4)))
  else readFinite? s cs

end Decimal

end Quarry.Number
