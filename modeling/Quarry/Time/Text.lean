import Quarry.Time.Moment
import Quarry.Number.Shortest
import Quarry.Text.Blank
import Quarry.Text.Digit

/-!
# Text of dates and times

Two written forms. The stored form `2024-01-02 03:04:05` is what columns hold: it has no fraction
and no offset, and its year has as many digits as the number needs. The standard form
`2024-01-02T03:04:05.000006+09:00` has four digits for the year, a fraction if there is one and the
offset if it is known. `Moment.ofStandard?` reads the standard form; `Moment.ofStored?` reads what a
column may hold, which is the standard form with a `T` or a space in the middle, `Z` for UTC, or no
offset at all.
-/

set_option autoImplicit false

namespace Quarry.Time

open Quarry.Number (padded zeros)

/-- The stored form of a date. -/
def Date.stored (d : Date) : String :=
  String.ofList (padded 1 d.year ++ '-' :: padded 2 d.month ++ '-' :: padded 2 d.day)

/-- The standard form of a date. -/
def Date.standardChars (d : Date) : List Char :=
  padded 4 d.year ++ '-' :: padded 2 d.month ++ '-' :: padded 2 d.day

namespace Moment

/-- Hours, minutes and seconds. -/
def clockChars (m : Moment) : List Char :=
  padded 2 m.hour ++ ':' :: padded 2 m.minute ++ ':' :: padded 2 m.second

/-- The stored form of a moment as the calendar and clock show it. -/
def storedChars (m : Moment) : List Char := m.date.stored.toList ++ ' ' :: m.clockChars

/-- The stored form. With `utc` a moment that knows its offset is first moved to UTC, which fails
when there is no such date. -/
def stored? (utc : Bool) (m : Moment) : Option String :=
  if utc && m.offset.isSome then m.toUtc?.map fun u => String.ofList u.storedChars
  else some (String.ofList m.storedChars)

/-- An offset from UTC; seconds are written only when there are any. -/
def offsetChars (o : Int) : List Char :=
  let n := o.natAbs
  (if o < 0 then '-' else '+') :: padded 2 (n / 3600) ++ ':' :: padded 2 (n % 3600 / 60) ++
    (if n % 60 == 0 then [] else ':' :: padded 2 (n % 60))

/-- The standard form, with the given character between date and time. -/
def standardChars (separator : Char) (m : Moment) : List Char :=
  m.date.standardChars ++ separator :: m.clockChars ++
    (if m.micro == 0 then [] else '.' :: padded 6 m.micro) ++
    (match m.offset with
     | none => []
     | some o => offsetChars o)

/-- The standard form. -/
def standard (separator : Char) (m : Moment) : String :=
  String.ofList (m.standardChars separator)

end Moment

/-- Exactly `n` ASCII digits at the start of a text, with what follows them. -/
def takeDigits? (n : Nat) (cs : List Char) : Option (Nat × List Char) :=
  let ds := cs.take n
  if ds.length == n && ds.all Text.isAsciiDigit then some (Text.asciiNat ds, cs.drop n) else none

/-- The character `c` at the start of a text. -/
def takeChar? (c : Char) : List Char → Option (List Char)
  | [] => none
  | d :: rest => if d == c then some rest else none

/-- A date at the start of a text. -/
def takeDate? (cs : List Char) : Option (Date × List Char) := do
  let (y, cs) ← takeDigits? 4 cs
  let cs ← takeChar? '-' cs
  let (m, cs) ← takeDigits? 2 cs
  let cs ← takeChar? '-' cs
  let (d, cs) ← takeDigits? 2 cs
  return (⟨y, m, d⟩, cs)

/-- A fraction of a second at the start of a text, in microseconds; digits after the sixth are cut
off. -/
def takeFraction (cs : List Char) : Nat × List Char :=
  match cs with
  | '.' :: rest =>
    let ds := rest.takeWhile Text.isAsciiDigit
    let six := ds.take 6
    (Text.asciiNat six * Nat.pow 10 (6 - six.length), rest.dropWhile Text.isAsciiDigit)
  | _ => (0, cs)

/-- Read an offset without its sign: hours, minutes and optional seconds, with colons or without. -/
def readOffset? (cs : List Char) : Option Nat := do
  let (h, cs) ← takeDigits? 2 cs
  match cs with
  | ':' :: cs =>
    let (m, cs) ← takeDigits? 2 cs
    match cs with
    | [] => return h * 3600 + m * 60
    | ':' :: cs =>
      let (s, cs) ← takeDigits? 2 cs
      if cs.isEmpty then return h * 3600 + m * 60 + s else none
    | _ => none
  | _ =>
    let (m, cs) ← takeDigits? 2 cs
    if cs.isEmpty then return h * 3600 + m * 60 else none

/-- Read what follows a time of day: nothing, `Z`, or a signed offset. -/
def readZone? : List Char → Option (Option Int)
  | [] => some none
  | ['Z'] => some (some 0)
  | '+' :: cs => (readOffset? cs).map fun n => some (n : Int)
  | '-' :: cs => (readOffset? cs).map fun n => some (-(n : Int))
  | _ => none

/-- Read a date. -/
def Date.ofStandard? (cs : List Char) : Option Date := do
  let (d, rest) ← takeDate? cs
  if rest.isEmpty && d.isValid then return d else none

/-- Read a moment in standard form; the separator may be any character. -/
def Moment.ofStandard? (cs : List Char) : Option Moment := do
  let (date, cs) ← takeDate? cs
  let (_, cs) ← match cs with
    | [] => none
    | c :: rest => some (c, rest)
  let (h, cs) ← takeDigits? 2 cs
  let cs ← takeChar? ':' cs
  let (mi, cs) ← takeDigits? 2 cs
  let cs ← takeChar? ':' cs
  let (s, cs) ← takeDigits? 2 cs
  let (micro, cs) := takeFraction cs
  let zone ← readZone? cs
  let m : Moment := ⟨date, h, mi, s, micro, zone⟩
  if m.isValid then return m else none

/-- A fraction of a second at the start of a text, and what follows it. Digits of all scripts count
as long as there is at least one. -/
def cutFraction (cs : List Char) : List Char × List Char :=
  match cs with
  | '.' :: rest =>
    let ds := rest.takeWhile fun c => (Text.digitValue? c).isSome
    if ds.isEmpty then ([], cs) else (ds, rest.drop ds.length)
  | _ => ([], cs)

/-- Whether a text has the outline of an offset of hours and minutes, of `Z`, or of none. -/
def hasZoneOutline : List Char → Bool
  | [] => true
  | ['Z'] => true
  | c :: z =>
    (c == '+' || c == '-') && (z.length == 4 || (z.length == 5 && (z.drop 2).head? == some ':'))

/-- The length of a date and a time without fraction. -/
def plainLength : Nat := 19

/-- Whether the text has the outline of a stored moment: a date, a `T` or a space, a time with an
optional fraction that has at least one digit, and an offset of hours and minutes, `Z`, or none. -/
def hasStoredOutline (cs : List Char) : Bool :=
  let middle := (cs.drop 10).head?
  (middle == some 'T' || middle == some ' ') && hasZoneOutline (cutFraction (cs.drop plainLength)).2

/-- A stored moment without the digits of its fraction that are not used: in front of an offset
those behind the sixth, whatever their script. -/
def dropUnused (cs : List Char) : List Char :=
  match cutFraction (cs.drop plainLength) with
  | (_, []) => cs
  | ([], _) => cs
  | (ds, zone) => cs.take plainLength ++ '.' :: (ds.take 6 ++ zone)

/-- Read the text of a stored moment, blanks around it ignored. -/
def Moment.ofStored? (text : String) : Option Moment :=
  let cs := Text.trim text.toList
  if hasStoredOutline cs then Moment.ofStandard? (dropUnused cs) else none

end Quarry.Time
