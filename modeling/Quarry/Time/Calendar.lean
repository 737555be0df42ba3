/-!
# The calendar

Dates of the Gregorian calendar from year 1 to year 9999, and their numbering by days: day 1 is the
first of January of year 1. `ordinal` numbers a date and `ofOrdinal` finds the date of a number by
peeling off cycles of 400, 100, 4 and 1 years; the last year of a cycle may be a day longer, which
is why the number of centuries and of single years is capped.
-/

set_option autoImplicit false

namespace Quarry.Time

/-- A date. -/
structure Date where
  year : Nat
  month : Nat
  day : Nat
  deriving DecidableEq

/-- The last year that a date may have. -/
def maxYear : Nat := 9999

/-- Whether a year has a 29th of February. -/
def isLeap (y : Nat) : Bool := y % 4 == 0 && (y % 100 != 0 || y % 400 == 0)

/-- The lengths of the months of a year. -/
def monthLengths (y : Nat) : List Nat :=
  [31, if isLeap y then 29 else 28, 31, 30, 31, 30, 31, 31, 30, 31, 30, 31]

/-- The number of days in a month; there is no month 0 and no month 13. -/
def daysInMonth (y m : Nat) : Nat :=
  match m with
  | 0 => 0
  | m + 1 => (monthLengths y)[m]?.getD 0

/-- The number of days before the first day of a year. -/
def daysBeforeYear (y : Nat) : Nat := (y - 1) * 365 + (y - 1) / 4 - (y - 1) / 100 + (y - 1) / 400

/-- The number of days of a year before the first day of a month. -/
def daysBeforeMonth (y m : Nat) : Nat := ((monthLengths y).take (m - 1)).foldl (· + ·) 0

/-- Find the month and the day of the day `n` (counted from 0) among months of the given lengths,
the first of which has the number `m`. -/
def findMonth : List Nat → Nat → Nat → Nat × Nat
  | [], m, n => (m, n + 1)
  | len :: rest, m, n => if n < len then (m, n + 1) else findMonth rest (m + 1) (n - len)

namespace Date

/-- Whether the date exists. -/
def isValid (d : Date) : Bool :=
  1 <= d.year && d.year <= maxYear && 1 <= d.day && d.day <= daysInMonth d.year d.month

/-- The number of a date. -/
def ordinal (d : Date) : Nat := daysBeforeYear d.year + daysBeforeMonth d.year d.month + d.day

/-- The number of the last date. -/
def maxOrdinal : Nat := 3652059

/-- The date with a number. -/
def ofOrdinal (n : Nat) : Date :=
  let n := n - 1
  let cycles := n / 146097
  let n := n % 146097
  let centuries := min (n / 36524) 3
  let n := n - centuries * 36524
  let quads := n / 1461
  let n := n % 1461
  let years := min (n / 365) 3
  let n := n - years * 365
  let year := 400 * cycles + 100 * centuries + 4 * quads + years + 1
  let (month, day) := findMonth (monthLengths year) 1 n
  ⟨year, month, day⟩

end Date

end Quarry.Time
