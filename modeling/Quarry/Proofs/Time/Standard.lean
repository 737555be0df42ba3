import Quarry.Proofs.Text.Trim
import Quarry.Proofs.Time.Stored
import Quarry.Proofs.Time.Utc
import Quarry.Value.Reading

/-!
# Moments written and read

Columns hold moments in two forms. The stored form has lost the microseconds and the offset, so it
is read as the moment to the second in UTC. The standard form has everything: the fraction ends
where the sign of the offset stands, and with an offset of whole minutes the sign stands where the
outline of a stored moment wants it. So it is read as the moment itself, whatever blanks are around
it.
-/

set_option autoImplicit false

namespace Quarry

open Number (padded)

namespace Time

/-- A digit of ASCII has a value. -/
theorem isSome_digitValue? {c : Char} (h : Text.isAsciiDigit c = true) :
    (Text.digitValue? c).isSome = true := by
  obtain ⟨hfirst, hlast⟩ := Bool.and_eq_true_iff.mp h
  have hfirst' : 0x30 ≤ c.toNat := of_decide_eq_true hfirst
  have hlast' : c.toNat ≤ 0x39 := of_decide_eq_true hlast
  have hblock : 0x30 ≤ c.toNat ∧ c.toNat ≤ 0x30 + 9 := ⟨hfirst', hlast'⟩
  simp [Text.digitValue?, Text.digitZeros, hblock]

/-- Two digits with a text behind them. -/
theorem takeDigits?_two {n : Nat} (hn : n < 100) (rest : List Char) :
    takeDigits? 2 (padded 2 n ++ rest) = some (n, rest) := takeDigits?_padded (by omega) hn rest

/-- Numbers below 100 have two digits. -/
theorem length_two {n : Nat} (hn : n < 100) : (padded 2 n).length = 2 := Number.length_padded (by omega) hn

/-- A character is taken from the front. -/
@[simp] theorem takeChar?_cons (c : Char) (rest : List Char) : takeChar? c (c :: rest) = some rest := by
  simp [takeChar?]

namespace Date

variable {d : Date}

/-- A date has ten characters. -/
theorem length_standardChars (h : d.isValid = true) : d.standardChars.length = 10 := by
  obtain ⟨hyear, hmonth, hday⟩ := bounds h
  have hfour : (padded 4 d.year).length = 4 := Number.length_padded (by omega) hyear
  simp [standardChars, hfour, length_two hmonth, length_two hday]

/-- A date is taken from the front. -/
theorem takeDate?_standardChars (h : d.isValid = true) (rest : List Char) :
    takeDate? (d.standardChars ++ rest) = some (d, rest) := by
  obtain ⟨hyear, hmonth, hday⟩ := bounds h
  have hfour (rest : List Char) : takeDigits? 4 (padded 4 d.year ++ rest) = some (d.year, rest) :=
    takeDigits?_padded (by omega) hyear rest
  simp [standardChars, takeDate?, hfour, takeDigits?_two hmonth, takeDigits?_two hday]

end Date

namespace Moment

variable {m u : Moment} {o : Int}

/-! ## The parts of the standard form -/

/-- The fraction of a second, if there is one. -/
def fractionChars (m : Moment) : List Char := if m.micro == 0 then [] else '.' :: padded 6 m.micro

/-- The date and the time to the second. -/
def plainChars (separator : Char) (m : Moment) : List Char :=
  m.date.standardChars ++ separator :: m.clockChars

/-- A moment is written as its plain part, its fraction and its offset. -/
theorem standardChars_eq (separator : Char) (ho : m.offset = some o) :
    m.standardChars separator = m.plainChars separator ++ (m.fractionChars ++ offsetChars o) := by
  simp [standardChars, plainChars, fractionChars, ho]

/-- The plain part has always the same length. -/
theorem length_plainChars (separator : Char) (h : m.isValid = true) :
    (m.plainChars separator).length = plainLength := by
  obtain ⟨hdate, hhour, hminute, hsecond, -⟩ := clock_bounds h
  simp [plainChars, clockChars, Date.length_standardChars hdate, length_two (show m.hour < 100 by omega),
    length_two (show m.minute < 100 by omega), length_two (show m.second < 100 by omega), plainLength]

/-- An offset of whole minutes: its sign, the hours and the minutes. -/
theorem offsetChars_eq (hminutes : o % 60 = 0) :
    offsetChars o = (if o < 0 then '-' else '+') ::
      (padded 2 (o.natAbs / 3600) ++ ':' :: padded 2 (o.natAbs % 3600 / 60)) := by
  have hseconds : o.natAbs % 60 = 0 := by omega
  simp [offsetChars, hseconds]

/-- Hours and minutes of an offset have two digits. -/
theorem offset_bounds (h : m.isValid = true) (ho : m.offset = some o) :
    o.natAbs / 3600 < 100 ∧ o.natAbs % 3600 / 60 < 100 := by
  simp only [isValid, ho, Bool.and_eq_true, decide_eq_true_eq] at h
  omega

/-- The sign of an offset is no digit. -/
theorem sign_not_digit (o : Int) : Text.isAsciiDigit (if o < 0 then '-' else '+') = false ∧
    (Text.digitValue? (if o < 0 then '-' else '+')).isSome = false := by
  split_ifs <;> exact ⟨rfl, rfl⟩

/-- The fraction is taken from before what is no digit. -/
theorem takeFraction_fractionChars (h : m.isValid = true) {c : Char} (hc : Text.isAsciiDigit c = false)
    (hpoint : c ≠ '.') (rest : List Char) :
    takeFraction (m.fractionChars ++ c :: rest) = (m.micro, c :: rest) := by
  have hmicro := (clock_bounds h).2.2.2.2
  unfold fractionChars
  split_ifs with hzero
  · rw [List.nil_append, takeFraction, beq_iff_eq.mp hzero]
    rintro behind heq
    exact hpoint (List.cons.inj heq).1
  · have hlength : (padded 6 m.micro).length = 6 := Number.length_padded (by omega) hmicro
    have hdigits : ∀ d ∈ padded 6 m.micro, Text.isAsciiDigit d = true := fun d hd =>
      Number.isAsciiDigit_of_mem_padded hd
    have htake : (padded 6 m.micro ++ c :: rest).takeWhile Text.isAsciiDigit = padded 6 m.micro := by
      rw [List.takeWhile_append_of_pos hdigits, List.takeWhile_cons_of_neg (by simp [hc]), List.append_nil]
    have hdrop : (padded 6 m.micro ++ c :: rest).dropWhile Text.isAsciiDigit = c :: rest := by
      rw [List.dropWhile_append_of_pos hdigits, List.dropWhile_cons_of_neg (by simp [hc])]
    rw [List.cons_append, takeFraction, htake, hdrop, List.take_of_length_le hlength.le, hlength,
      Number.asciiNat_padded]
    simp

/-- The fraction is cut off before what is no digit. -/
theorem cutFraction_fractionChars {c : Char} (hc : (Text.digitValue? c).isSome = false) (hpoint : c ≠ '.')
    (rest : List Char) :
    cutFraction (m.fractionChars ++ c :: rest) =
      (if m.micro == 0 then [] else padded 6 m.micro, c :: rest) := by
  unfold fractionChars
  split_ifs with hzero
  · rw [List.nil_append, cutFraction]
    rintro behind heq
    exact hpoint (List.cons.inj heq).1
  · have hdigits : ∀ d ∈ padded 6 m.micro, (Text.digitValue? d).isSome = true := fun d hd =>
      isSome_digitValue? (Number.isAsciiDigit_of_mem_padded hd)
    have htake : (padded 6 m.micro ++ c :: rest).takeWhile (fun d => (Text.digitValue? d).isSome) =
        padded 6 m.micro := by
      rw [List.takeWhile_append_of_pos hdigits, List.takeWhile_cons_of_neg (by simp [hc]), List.append_nil]
    have hsome : (padded 6 m.micro).isEmpty = false := by simp [padded, Nat.toDigits_ne_nil]
    rw [List.cons_append, cutFraction, htake, if_neg (by simp [hsome]), List.drop_left]

/-- An offset in whole minutes is read back. -/
theorem readZone?_offsetChars (h : m.isValid = true) (ho : m.offset = some o) (hminutes : o % 60 = 0) :
    readZone? (offsetChars o) = some (some o) := by
  obtain ⟨hhours, hmins⟩ := offset_bounds h ho
  have hlast : takeDigits? 2 (padded 2 (o.natAbs % 3600 / 60)) = some (o.natAbs % 3600 / 60, []) := by
    simpa using takeDigits?_two hmins []
  have hread : readOffset? (padded 2 (o.natAbs / 3600) ++ ':' :: padded 2 (o.natAbs % 3600 / 60)) =
      some o.natAbs := by
    have htotal : o.natAbs / 3600 * 3600 + o.natAbs % 3600 / 60 * 60 = o.natAbs := by omega
    simp [readOffset?, takeDigits?_two hhours, hlast, htotal]
  rw [offsetChars_eq hminutes]
  split_ifs with hsign
  · have hvalue : -(o.natAbs : Int) = o := by omega
    rw [readZone?, hread]
    exact congrArg (fun n => some (some n)) hvalue
  · have hvalue : (o.natAbs : Int) = o := by omega
    rw [readZone?, hread]
    exact congrArg (fun n => some (some n)) hvalue

/-! ## Reading the standard form -/

/-- The standard form with an offset of whole minutes is read as the moment. -/
theorem ofStandard?_standardChars (h : m.isValid = true) (ho : m.offset = some o) (hminutes : o % 60 = 0)
    (separator : Char) : ofStandard? (m.standardChars separator) = some m := by
  obtain ⟨hdate, hhour, hminute, hsecond, -⟩ := clock_bounds h
  obtain ⟨hsign, -⟩ := sign_not_digit o
  have hfraction : takeFraction (m.fractionChars ++ offsetChars o) = (m.micro, offsetChars o) := by
    rw [offsetChars_eq hminutes]
    exact takeFraction_fractionChars h hsign (by split_ifs <;> decide) _
  have hwhole : (⟨m.date, m.hour, m.minute, m.second, m.micro, some o⟩ : Moment) = m := by rw [← ho]
  rw [standardChars_eq separator ho, plainChars, List.append_assoc, ofStandard?,
    Date.takeDate?_standardChars hdate]
  simp only [clockChars, List.cons_append, List.append_assoc, Option.bind_eq_bind, Option.bind_some,
    takeDigits?_two (show m.hour < 100 by omega), takeDigits?_two (show m.minute < 100 by omega),
    takeDigits?_two (show m.second < 100 by omega), takeChar?_cons, hfraction,
    readZone?_offsetChars h ho hminutes, hwhole, h, if_true, Option.pure_def]

/-- Behind the plain part come the fraction and the offset. -/
theorem drop_standardChars (h : m.isValid = true) (ho : m.offset = some o) (separator : Char) :
    (m.standardChars separator).drop plainLength = m.fractionChars ++ offsetChars o := by
  rw [standardChars_eq separator ho]
  exact List.drop_left' (length_plainChars separator h)

/-- A written moment has the outline of a stored one. -/
theorem hasStoredOutline_standardChars (h : m.isValid = true) (ho : m.offset = some o)
    (hminutes : o % 60 = 0) {separator : Char} (hseparator : separator = 'T' ∨ separator = ' ') :
    hasStoredOutline (m.standardChars separator) = true := by
  obtain ⟨hhours, hmins⟩ := offset_bounds h ho
  have hmiddle : ((m.standardChars separator).drop 10).head? = some separator := by
    rw [standardChars_eq separator ho, plainChars, List.append_assoc,
      List.drop_left' (Date.length_standardChars (clock_bounds h).1)]
    rfl
  have hzone : (cutFraction ((m.standardChars separator).drop plainLength)).2 = offsetChars o := by
    rw [drop_standardChars h ho, offsetChars_eq hminutes,
      cutFraction_fractionChars (sign_not_digit o).2 (by split_ifs <;> decide)]
  have houtline : hasZoneOutline (offsetChars o) = true := by
    have hlength : (padded 2 (o.natAbs / 3600) ++ ':' :: padded 2 (o.natAbs % 3600 / 60)).length = 5 := by
      simp [length_two hhours, length_two hmins]
    have hcolon : ((padded 2 (o.natAbs / 3600) ++ ':' :: padded 2 (o.natAbs % 3600 / 60)).drop 2).head? =
        some ':' := by
      rw [List.drop_left' (length_two hhours)]
      rfl
    rw [offsetChars_eq hminutes]
    split_ifs <;> simp [hasZoneOutline, hlength, hcolon]
  unfold hasStoredOutline
  simp only [hmiddle, hzone, houtline, Bool.and_true]
  obtain rfl | rfl := hseparator <;> rfl

/-- In the standard form there are no digits of the fraction that are not used. -/
theorem dropUnused_standardChars (h : m.isValid = true) (ho : m.offset = some o) (hminutes : o % 60 = 0)
    (separator : Char) : dropUnused (m.standardChars separator) = m.standardChars separator := by
  have hcut : cutFraction ((m.standardChars separator).drop plainLength) =
      (if m.micro == 0 then [] else padded 6 m.micro, offsetChars o) := by
    rw [drop_standardChars h ho, offsetChars_eq hminutes,
      cutFraction_fractionChars (sign_not_digit o).2 (by split_ifs <;> decide)]
  obtain ⟨sign, zone, hoffset⟩ : ∃ sign zone, offsetChars o = sign :: zone := ⟨_, _, offsetChars_eq hminutes⟩
  unfold dropUnused
  rw [hcut, hoffset]
  split_ifs with hzero
  · rfl
  · have hlength : (padded 6 m.micro).length = 6 :=
      Number.length_padded (by omega) (clock_bounds h).2.2.2.2
    have hfront : (m.standardChars separator).take plainLength = m.plainChars separator := by
      rw [standardChars_eq separator ho]
      exact List.take_left' (length_plainChars separator h)
    obtain ⟨d, ds, hdigits⟩ := List.exists_cons_of_length_eq_add_one hlength
    have hall : (d :: ds).take 6 = padded 6 m.micro := by
      rw [← hdigits, List.take_of_length_le hlength.le]
    rw [hdigits]
    dsimp only
    rw [hall, hfront, standardChars_eq separator ho, fractionChars, if_neg hzero, hoffset]
    rfl

/-! ## Reading what a column holds -/

/-- The standard form of a moment begins and ends with a digit. -/
theorem trim_standardChars (ho : m.offset = some o) (hminutes : o % 60 = 0) (separator : Char) :
    Text.trim (m.standardChars separator) = m.standardChars separator := by
  have hne (width n : Nat) : padded width n ≠ [] := by simp [padded, Nat.toDigits_ne_nil]
  have hblank (width n : Nat) {c : Char} (hc : c ∈ padded width n) : Text.isBlank c = false :=
    Text.isBlank_of_isAsciiDigit (Number.isAsciiDigit_of_mem_padded hc)
  obtain ⟨first, years, hfirst⟩ := List.exists_cons_of_ne_nil (hne 4 m.date.year)
  obtain hnil | ⟨minutes, last, hlast⟩ := List.eq_nil_or_concat (padded 2 (o.natAbs % 3600 / 60))
  · exact absurd hnil (hne _ _)
  have hstart : ∃ rest, m.standardChars separator = first :: rest := by
    rw [standardChars_eq separator ho, plainChars, Date.standardChars, hfirst]
    exact ⟨_, rfl⟩
  have hend : ∃ front, m.standardChars separator = front ++ [last] := by
    rw [standardChars_eq separator ho, offsetChars_eq hminutes, hlast]
    exact ⟨m.plainChars separator ++ (m.fractionChars ++ (if o < 0 then '-' else '+') ::
      (padded 2 (o.natAbs / 3600) ++ ':' :: minutes)), by simp⟩
  obtain ⟨rest, hstart⟩ := hstart
  obtain ⟨front, hend⟩ := hend
  exact Text.trimBy_eq_self (hblank 4 m.date.year (by simp [hfirst]))
    (hblank 2 (o.natAbs % 3600 / 60) (by simp [hlast])) hstart hend

/-- The standard form of a moment with blanks around it is read as the moment. -/
theorem ofStored?_standardChars (h : m.isValid = true) (ho : m.offset = some o) (hminutes : o % 60 = 0)
    {separator : Char} (hseparator : separator = 'T' ∨ separator = ' ') {front back : List Char}
    (hfront : ∀ c ∈ front, Text.isBlank c = true) (hback : ∀ c ∈ back, Text.isBlank c = true) :
    ofStored? (String.ofList (front ++ m.standardChars separator ++ back)) = some m := by
  have htrim : Text.trim (front ++ m.standardChars separator ++ back) = m.standardChars separator :=
    (Text.trimBy_surrounded hfront hback).trans (trim_standardChars ho hminutes separator)
  rw [ofStored?, String.toList_ofList, htrim,
    if_pos (hasStoredOutline_standardChars h ho hminutes hseparator), dropUnused_standardChars h ho hminutes,
    ofStandard?_standardChars h ho hminutes]

/-! ## Both forms -/

/-- A moment of the same instant in UTC is where a moment is placed. -/
theorem IsUtcOf.placeMoment (hm : m.isValid = true) (ho : m.offset = some o) (hu : u.IsUtcOf m) :
    Value.placeMoment true m = .ok (.moment u) := by
  unfold Value.placeMoment
  rw [if_pos rfl, hu.toUtc? hm (by simp [ho])]

/-- A moment of UTC is read from its stored form to the second, from year 1000 on. -/
theorem IsUtcOf.readMoment_stored (hu : u.IsUtcOf m) (hyear : 1000 ≤ u.date.year) :
    Value.readMoment true (.text (String.ofList u.storedChars)) = .ok (.moment { u with micro := 0 }) := by
  have hutc : ({ u with micro := 0, offset := none } : Moment).toUtc? = some { u with micro := 0 } := by
    rw [hu.utc]
    rfl
  rw [Value.readMoment, ofStored?_storedChars hu.valid hyear]
  dsimp only
  rw [Value.placeMoment, if_pos rfl, hutc]

/-- A moment whose offset is of whole minutes is read from its stored form as the second in UTC, and
from its standard form, with any blanks around it, as the same instant in UTC. -/
theorem readMoment_written (hm : m.isValid = true) (ho : m.offset = some o) (hminutes : o % 60 = 0)
    (hu : u.IsUtcOf m) (hyear : 1000 ≤ u.date.year) :
    (∃ s, Value.storedMoment true m = .ok s ∧
      Value.readMoment true (.text s) = .ok (.moment { u with micro := 0 })) ∧
    ∀ separator, separator = 'T' ∨ separator = ' ' → ∀ front back : List Char,
      (∀ c ∈ front, Text.isBlank c = true) → (∀ c ∈ back, Text.isBlank c = true) →
      Value.readMoment true (.text (String.ofList (front ++ m.standardChars separator ++ back))) =
        .ok (.moment u) := by
  constructor
  · refine ⟨String.ofList u.storedChars, ?_, hu.readMoment_stored hyear⟩
    simp [Value.storedMoment, stored?, ho, hu.toUtc? hm (by simp [ho])]
  · intro separator hseparator front back hfront hback
    rw [Value.readMoment, ofStored?_standardChars hm ho hminutes hseparator hfront hback]
    exact hu.placeMoment hm ho

/-- Half an hour before midnight on a leap day, an hour west of UTC. -/
theorem readMoment_written_leapDay :
    let m : Moment := ⟨⟨2024, 2, 29⟩, 23, 30, 0, 250, some (-3600)⟩
    let u : Moment := ⟨⟨2024, 3, 1⟩, 0, 30, 0, 250, some 0⟩
    m.isValid = true ∧ u.IsUtcOf m ∧
      (∃ s, Value.storedMoment true m = .ok s ∧
        Value.readMoment true (.text s) = .ok (.moment { u with micro := 0 })) ∧
      Value.readMoment true (.text " 2024-02-29T23:30:00.000250-01:00\n") = .ok (.moment u) := by
  intro m u
  have hm : m.isValid = true := by decide
  have hu : u.IsUtcOf m := ⟨by decide, rfl, by decide⟩
  obtain ⟨hstored, hstandard⟩ := readMoment_written hm rfl (by decide) hu (by decide)
  have hread := hstandard 'T' (.inl rfl) [' '] ['\n'] (List.forall_mem_singleton.mpr rfl)
    (List.forall_mem_singleton.mpr rfl)
  have htext : String.ofList ([' '] ++ m.standardChars 'T' ++ ['\n']) =
      " 2024-02-29T23:30:00.000250-01:00\n" := by decide +kernel
  rw [htext] at hread
  exact ⟨hm, hu, hstored, hread⟩

end Moment

end Time

end Quarry
