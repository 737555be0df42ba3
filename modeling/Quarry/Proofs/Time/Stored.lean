import Quarry.Proofs.Number.Digits
import Quarry.Proofs.Text.Trim
import Quarry.Time.Text

/-!
# Stored moments read back

The stored form of a moment has a fixed number of digits for each of its parts once the year has
four, so that each part is found at its place. What is read is the moment to the second; whether its
offset was known does not show.
-/

set_option autoImplicit false

namespace Quarry

/-! ## Trimming -/

namespace Text

/-- A digit is not blank. -/
theorem isBlank_of_isAsciiDigit {c : Char} (h : isAsciiDigit c = true) : isBlank c = false := by
  obtain ⟨hfirst, hlast⟩ := Bool.and_eq_true_iff.mp h
  have hfirst' : 0x30 ≤ c.toNat := of_decide_eq_true hfirst
  have hlast' : c.toNat ≤ 0x39 := of_decide_eq_true hlast
  simp [isBlank]
  omega

end Text

/-! ## Moments -/

namespace Time

open Number (padded)

/-- A padded number is taken from the front. -/
theorem takeDigits?_padded {width n : Nat} (hwidth : 0 < width) (hn : n < 10 ^ width)
    (rest : List Char) : takeDigits? width (padded width n ++ rest) = some (n, rest) := by
  have hlength := Number.length_padded hwidth hn
  have hdigits : (padded width n).all Text.isAsciiDigit = true :=
    List.all_eq_true.mpr fun c hc => Number.isAsciiDigit_of_mem_padded hc
  rw [takeDigits?, List.take_left' hlength, List.drop_left' hlength]
  simp [hlength, hdigits, Number.asciiNat_padded]

/-- A year of four digits needs no zeros. -/
theorem padded_year {year : Nat} (hfour : 1000 ≤ year) (hyear : year < 10000) :
    padded 1 year = padded 4 year := by
  have hle := (Nat.length_toDigits_le_iff (n := year) (b := 10) (k := 4) (by omega) (by omega)).mpr
    hyear
  have hlt := (Nat.length_toDigits_le_iff (n := year) (b := 10) (k := 3) (by omega) (by omega)).not.mpr
    (by omega)
  have hlength : (Nat.toDigits 10 year).length = 4 := by omega
  simp [padded, hlength]

/-- A year has twelve months. -/
theorem length_monthLengths (year : Nat) : (monthLengths year).length = 12 := rfl

/-- The parts of a date have no more digits than their stored form. -/
theorem Date.bounds {d : Date} (h : d.isValid = true) :
    d.year < 10000 ∧ d.month < 100 ∧ d.day < 100 := by
  obtain ⟨⟨⟨-, hyear⟩, hfirst⟩, hlast⟩ : ((1 ≤ d.year ∧ d.year ≤ maxYear) ∧ 1 ≤ d.day) ∧
      d.day ≤ daysInMonth d.year d.month := by simpa [isValid] using h
  have hlengths : ∀ n ∈ monthLengths d.year, n ≤ 31 := by
    intro n hn
    simp only [monthLengths, List.mem_cons, List.not_mem_nil, or_false] at hn
    split at hn <;> omega
  refine ⟨Nat.lt_succ_of_le hyear, ?_⟩
  cases hmonth : d.month with
  | zero =>
    rw [hmonth, daysInMonth] at hlast
    omega
  | succ n =>
    rw [hmonth, daysInMonth] at hlast
    cases hdays : (monthLengths d.year)[n]? with
    | none =>
      rw [hdays, Option.getD_none] at hlast
      omega
    | some days =>
      have hn := (List.getElem?_eq_some_iff.mp hdays).1
      have hle := hlengths days (List.mem_of_getElem? hdays)
      rw [length_monthLengths] at hn
      rw [hdays, Option.getD_some] at hlast
      omega

namespace Moment

variable {m : Moment}

/-- The parts of a stored moment, each with as many digits as it may have. -/
theorem storedChars_eq (hfour : 1000 ≤ m.date.year) (hyear : m.date.year < 10000) :
    m.storedChars = padded 4 m.date.year ++ '-' :: (padded 2 m.date.month ++ '-' ::
      (padded 2 m.date.day ++ ' ' :: (padded 2 m.hour ++ ':' :: (padded 2 m.minute ++ ':' ::
        padded 2 m.second)))) := by
  simp [storedChars, Date.stored, clockChars, padded_year hfour hyear]

/-- The parts of a valid moment have no more digits than their stored form. -/
theorem bounds (h : m.isValid = true) : (m.date.year < 10000 ∧ m.date.month < 100 ∧
    m.date.day < 100) ∧ m.hour < 100 ∧ m.minute < 100 ∧ m.second < 100 := by
  simp only [isValid, Bool.and_eq_true, decide_eq_true_eq] at h
  obtain ⟨⟨⟨⟨⟨hdate, hhour⟩, hminute⟩, hsecond⟩, -⟩, -⟩ := h
  exact ⟨Date.bounds hdate, by omega, by omega, by omega⟩

/-- The stored form of a moment has a space in the middle and nothing behind the time. -/
theorem storedChars_outline (h : m.isValid = true) (hfour : 1000 ≤ m.date.year) :
    (m.storedChars.drop 10).head? = some ' ' ∧ m.storedChars.drop plainLength = [] := by
  obtain ⟨⟨hyear, hmonth, hday⟩, hhour, hminute, hsecond⟩ := bounds h
  have htwo {n : Nat} (hn : n < 100) : (padded 2 n).length = 2 := Number.length_padded (by omega) hn
  have hyears : (padded 4 m.date.year).length = 4 := Number.length_padded (by omega) hyear
  have hfront : (padded 4 m.date.year ++ '-' :: (padded 2 m.date.month ++ '-' ::
      padded 2 m.date.day)).length = 10 := by
    simp [hyears, htwo hmonth, htwo hday]
  constructor
  · have hparts : m.storedChars = (padded 4 m.date.year ++ '-' :: (padded 2 m.date.month ++ '-' ::
        padded 2 m.date.day)) ++ ' ' :: m.clockChars := by
      simp [storedChars_eq hfour hyear, clockChars]
    rw [hparts, List.drop_left' hfront]
    rfl
  · refine List.drop_eq_nil_of_le ?_
    simp [storedChars_eq hfour hyear, hyears, htwo hmonth, htwo hday, htwo hhour, htwo hminute,
      htwo hsecond, plainLength]

/-- A stored moment is read back without its fractions, from the year 1000 on. -/
theorem ofStandard?_storedChars (h : m.isValid = true) (hyears : 1000 ≤ m.date.year) :
    ofStandard? m.storedChars = some { m with micro := 0, offset := none } := by
  obtain ⟨⟨hyear, hmonth, hday⟩, hhour, hminute, hsecond⟩ := bounds h
  have htwo {n : Nat} (hn : n < 100) (rest : List Char) :
      takeDigits? 2 (padded 2 n ++ rest) = some (n, rest) := takeDigits?_padded (by omega) hn rest
  have hlast : takeDigits? 2 (padded 2 m.second) = some (m.second, []) := by
    simpa using htwo hsecond []
  have hchar (c : Char) (rest : List Char) : takeChar? c (c :: rest) = some rest := by
    simp [takeChar?]
  have hfour (rest : List Char) : takeDigits? 4 (padded 4 m.date.year ++ rest) =
      some (m.date.year, rest) := takeDigits?_padded (by omega) hyear rest
  have hdate (rest : List Char) : takeDate? (padded 4 m.date.year ++ '-' ::
      (padded 2 m.date.month ++ '-' :: (padded 2 m.date.day ++ rest))) = some (m.date, rest) := by
    simp [takeDate?, hfour, hchar, htwo hmonth, htwo hday]
  have hvalid : isValid { m with micro := 0, offset := none } = true := by
    simp only [isValid, Bool.and_eq_true, decide_eq_true_eq] at h ⊢
    simp [h]
  have hfraction : takeFraction [] = (0, []) := rfl
  have hzone : readZone? [] = some none := rfl
  rw [storedChars_eq hyears hyear, ofStandard?, hdate]
  simp only [Option.bind_eq_bind, Option.bind_some, htwo hhour, htwo hminute, hlast, hchar, hfraction,
    hzone, hvalid, if_true, Option.pure_def]

/-- There is nothing to trim from a stored moment, from the year 1000 on. -/
theorem trim_storedChars (h : m.isValid = true) (hfour : 1000 ≤ m.date.year) :
    Text.trim m.storedChars = m.storedChars := by
  obtain ⟨⟨hyear, -⟩, -⟩ := bounds h
  have hne (width n : Nat) : padded width n ≠ [] := by
    simp [padded, Nat.toDigits_ne_nil]
  obtain ⟨first, years, hfirst⟩ := List.exists_cons_of_ne_nil (hne 4 m.date.year)
  obtain hnil | ⟨seconds, last, hlast⟩ := List.eq_nil_or_concat (padded 2 m.second)
  · exact absurd hnil (hne 2 m.second)
  have hparts := storedChars_eq hfour hyear
  have hblank (width n : Nat) {c : Char} (hc : c ∈ padded width n) : Text.isBlank c = false :=
    Text.isBlank_of_isAsciiDigit (Number.isAsciiDigit_of_mem_padded hc)
  have hstart := hparts
  rw [hfirst, List.cons_append] at hstart
  have hend : ∃ front, m.storedChars = front ++ [last] := by
    rw [hparts, hlast]
    exact ⟨padded 4 m.date.year ++ '-' :: (padded 2 m.date.month ++ '-' ::
      (padded 2 m.date.day ++ ' ' :: (padded 2 m.hour ++ ':' :: (padded 2 m.minute ++ ':' ::
        seconds)))), by simp⟩
  obtain ⟨front, hend⟩ := hend
  exact Text.trimBy_eq_self (hblank 4 m.date.year (by simp [hfirst]))
    (hblank 2 m.second (by simp [hlast])) hstart hend

/-- The stored form of a moment is read as the moment, without its microseconds and its offset. -/
theorem ofStored?_storedChars (h : m.isValid = true) (hfour : 1000 ≤ m.date.year) :
    ofStored? (String.ofList m.storedChars) = some { m with micro := 0, offset := none } := by
  obtain ⟨hmiddle, hend⟩ := storedChars_outline h hfour
  have houtline : hasStoredOutline m.storedChars = true := by
    simp [hasStoredOutline, hmiddle, hend, cutFraction, hasZoneOutline]
  have hunused : dropUnused m.storedChars = m.storedChars := by
    simp [dropUnused, hend, cutFraction]
  simp [ofStored?, trim_storedChars h hfour, houtline, hunused, ofStandard?_storedChars h hfour]

end Moment

end Time

end Quarry
