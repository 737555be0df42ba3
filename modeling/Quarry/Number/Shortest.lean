import Quarry.Number.Binary64

/-!
# Shortest decimal text of a binary64 number

A finite number is written with the fewest decimal digits that read back as the same number, and
among those with the digits nearest to it. `shortest` finds them in exact arithmetic: the reals
that round to the number form an interval (its ends belong to it when the mantissa is even), and
for one digit, two digits and so on the number's two neighbours on that decimal grid are tried
until one lies inside. Seventeen digits always suffice.

`Layout` says how digits become text: which magnitudes are written out in full, and how the
exponent looks otherwise.
-/

set_option autoImplicit false

namespace Quarry.Number

/-- The number `coefficient · 10 ^ exponent`. -/
structure Scientific where
  coefficient : Nat
  exponent : Int
  deriving DecidableEq

namespace Scientific

/-- Divide trailing zeros out of a positive coefficient; `fuel` bounds their number. -/
def stripZeros : Nat → Nat → Int → Scientific
  | 0, c, e => ⟨c, e⟩
  | fuel + 1, c, e => if c % 10 == 0 then stripZeros fuel (c / 10) (e + 1) else ⟨c, e⟩

/-- The same number without trailing zeros in its coefficient. -/
def normalize (c : Nat) (e : Int) : Scientific := stripZeros (digitCount c) c e

end Scientific

namespace Binary64

/-- The power of ten of the leading digit of the positive fraction `n / d`. -/
def leadingPower (n d : Nat) : Int :=
  if d <= n then digitCount (n / d) - 1
  else
    let k := digitCount (d / n)
    if n * Nat.pow 10 (k - 1) == d then 1 - (k : Int) else -(k : Int)

/-- The interval of reals that round to `m · 2 ^ e`, in quarters of the last place: the distance
down is half as long below a power of two, where the numbers lie twice as dense. -/
def roundingBounds (m : Nat) (e : Int) : Nat × Nat :=
  (if m == Nat.pow 2 52 && minExponent < e then 4 * m - 1 else 4 * m - 2, 4 * m + 2)

/-- Whether `c · 10 ^ p` rounds to `m · 2 ^ e`. -/
def readsBack (m : Nat) (e : Int) (c : Nat) (p : Int) : Bool :=
  let (lo, hi) := roundingBounds m e
  let (cn, cd) := scaled (4 * c) 10 p
  let (un, ud) := scaled 1 2 e
  let here := cn * ud
  let low := lo * un * cd
  let high := hi * un * cd
  if m % 2 == 0 then low <= here && here <= high else low < here && here < high

/-- Of the two grid neighbours of the value `n / d`, `a` below and `a + 1` above at grid width
`10 ^ p`, the one that reads back; if both do the nearer, and the even one on a tie. -/
def pickNeighbour (m : Nat) (e : Int) (n d a : Nat) (p : Int) : Option Scientific :=
  let low := readsBack m e a p && a != 0
  let high := readsBack m e (a + 1) p
  if low && high then
    let (gn, gd) := scaled 1 10 p
    -- twice the value against the sum of both neighbours
    let twice := 2 * n * gd
    let middle := (2 * a + 1) * gn * d
    if twice < middle || (twice == middle && a % 2 == 0) then some ⟨a, p⟩ else some ⟨a + 1, p⟩
  else if low then some ⟨a, p⟩
  else if high then some ⟨a + 1, p⟩
  else none

/-- Try `count`, `count + 1`, … digits, `fuel` times. -/
def shortestFrom (m : Nat) (e : Int) (n d : Nat) (lead : Int) : Nat → Nat → Scientific
  | 0, _ => ⟨m, 0⟩
  | fuel + 1, count =>
    let p := lead + 1 - count
    let (wn, wd) := scaled 1 10 p
    match pickNeighbour m e n d (n * wd / (d * wn)) p with
    | some s => s
    | none => shortestFrom m e n d lead fuel (count + 1)

/-- The shortest digits of `m · 2 ^ e`, for a positive mantissa. -/
def shortest (m : Nat) (e : Int) : Scientific :=
  let (n, d) := scaled m 2 e
  let s := shortestFrom m e n d (leadingPower n d) 17 1
  Scientific.normalize s.coefficient s.exponent

end Binary64

/-- How the digits of a number are laid out as text. -/
structure Layout where
  /-- The least power of ten of the leading digit that is written without an exponent. -/
  positionalFrom : Int
  /-- The least power of ten of the leading digit that is written with an exponent again. -/
  positionalBelow : Int
  /-- The least number of digits of an exponent. -/
  exponentDigits : Nat
  /-- The texts of the values that have no digits. -/
  nan : String
  infinity : String

namespace Layout

/-- Numbers from `0.0001` up to sixteen digits before the point are written out in full; others
have an exponent of at least two digits with its sign. -/
def plain : Layout := ⟨-4, 16, 2, "nan", "inf"⟩

/-- The layout used inside JSON text, which differs in the texts of the special values. -/
def json : Layout := ⟨-4, 16, 2, "NaN", "Infinity"⟩

end Layout

/-- `n` zeros. -/
def zeros (n : Nat) : List Char := List.replicate n '0'

/-- A whole number with at least `width` digits. -/
def padded (width n : Nat) : List Char :=
  let ds := Nat.toDigits 10 n
  zeros (width - ds.length) ++ ds

namespace Scientific

/-- The power of ten of the leading digit. -/
def lead (s : Scientific) : Int := s.exponent + digitCount s.coefficient - 1

/-- The digits written out in full, with at least one digit on either side of the point. -/
def positional (s : Scientific) : List Char :=
  let ds := Nat.toDigits 10 s.coefficient
  let point := s.lead + 1
  if point <= 0 then '0' :: '.' :: (zeros (-point).toNat ++ ds)
  else
    let whole := point.toNat
    if ds.length <= whole then ds ++ zeros (whole - ds.length) ++ ['.', '0']
    else ds.take whole ++ '.' :: ds.drop whole

/-- The digits with one in front of the point, followed by an exponent. -/
def exponential (width : Nat) (s : Scientific) : List Char :=
  let mantissa :=
    match Nat.toDigits 10 s.coefficient with
    | [] => []
    | [d] => [d]
    | d :: rest => d :: '.' :: rest
  mantissa ++ 'e' :: (if s.lead < 0 then '-' else '+') :: padded width s.lead.natAbs

/-- The digits in the layout's form. -/
def text (l : Layout) (s : Scientific) : List Char :=
  if l.positionalFrom <= s.lead && s.lead < l.positionalBelow then s.positional
  else s.exponential l.exponentDigits

end Scientific

namespace Binary64

/-- A sign in front of a text. -/
def signed (negative : Bool) (cs : List Char) : List Char := if negative then '-' :: cs else cs

/-- The shortest text of a number. -/
def text (l : Layout) : Binary64 → String
  | .nan _ => l.nan
  | .infinite s => String.ofList (signed s l.infinity.toList)
  | .finite s m e =>
    String.ofList (signed s (if m = 0 then ['0', '.', '0'] else (shortest m e).text l))

/-- The text with exactly `places` digits behind the point, a half going to the even neighbour. -/
def fixedText (places : Nat) : Binary64 → String
  | .nan _ => "nan"
  | .infinite s => String.ofList (signed s "inf".toList)
  | .finite s m e =>
    let (n, d) := scaled m 2 e
    let ds := padded (places + 1) (roundHalfEven (n * Nat.pow 10 places) d)
    let whole := ds.length - places
    String.ofList (signed s (ds.take whole ++ '.' :: ds.drop whole))

end Binary64

end Quarry.Number
