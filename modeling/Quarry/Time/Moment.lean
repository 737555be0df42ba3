import Quarry.Time.Calendar

/-!
# Points in time

A `Moment` is a date with a time of day, to the microsecond. It may carry its distance from UTC, and
then it denotes an instant; without one it is only what a calendar and a clock show. `toUtc?` moves
a moment with an offset to UTC, which fails when the date leaves the calendar.
-/

set_option autoImplicit false

namespace Quarry.Time

/-- A date and a time of day; `offset` is the distance from UTC in seconds, eastward positive. -/
structure Moment where
  date : Date
  hour : Nat
  minute : Nat
  second : Nat
  micro : Nat
  offset : Option Int
  deriving DecidableEq

namespace Moment

/-- Whether the date and the time of day exist and the offset is less than a day. -/
def isValid (m : Moment) : Bool :=
  m.date.isValid && m.hour < 24 && m.minute < 60 && m.second < 60 && m.micro < 1000000 &&
    (match m.offset with
     | none => true
     | some o => -86400 < o && o < 86400)

/-- Seconds since midnight. -/
def secondOfDay (m : Moment) : Nat := m.hour * 3600 + m.minute * 60 + m.second

/-- Seconds since the start of the calendar, as the calendar and clock show them. -/
def localSeconds (m : Moment) : Int := (m.date.ordinal : Int) * 86400 + m.secondOfDay

/-- The instant in seconds, for a moment whose offset is known; without one it is read as UTC. -/
def seconds (m : Moment) : Int := m.localSeconds - m.offset.getD 0

/-- The instant in microseconds. -/
def micros (m : Moment) : Int := m.seconds * 1000000 + m.micro

/-- The moment at a number of seconds since the start of the calendar, if it has a date then. -/
def ofLocalSeconds? (s : Int) (micro : Nat) (offset : Option Int) : Option Moment :=
  let day := Int.fdiv s 86400
  let rest := (Int.fmod s 86400).toNat
  if day < 1 || (Date.maxOrdinal : Int) < day then none
  else
    some ⟨Date.ofOrdinal day.toNat, rest / 3600, rest % 3600 / 60, rest % 60, micro, offset⟩

/-- The same instant in UTC. A moment without an offset is taken to be UTC already. -/
def toUtc? (m : Moment) : Option Moment :=
  match m.offset with
  | none => some { m with offset := some 0 }
  | some 0 => some m
  | some _ => ofLocalSeconds? m.seconds m.micro (some 0)

/-- Two moments are equal when both denote the same instant, or both show the same date and time
without an offset. -/
def equal (a b : Moment) : Bool :=
  a.offset.isSome == b.offset.isSome && a.micros == b.micros

end Moment

end Quarry.Time
