import Mathlib.Data.String.Basic
import Quarry.Json.Value
import Quarry.Proofs.Number.Equal
import Quarry.Proofs.Time.Stored
import Quarry.Proofs.Time.Utc

/-!
# The order of stored moments

Stored texts are compared character by character. Their parts stand in the order of their weight and
each has a fixed number of digits, except for the year, which has as many as it needs. So of two
stored texts with years of equally many digits the lesser is that of the earlier second
(`Moment.sorts_storedChars`); with other years they do not even have the same length.
-/

set_option autoImplicit false

namespace Quarry

open Number (digitCount padded)

/-- A number padded to one place has its own digits. -/
theorem Number.length_padded_one (n : Nat) : (padded 1 n).length = digitCount n := by
  have hpos : 0 < (Nat.toDigits 10 n).length := Number.digitCount_pos n
  simp only [padded, zeros, List.length_append, List.length_replicate, digitCount]
  omega

/-! ## Texts of one length -/

namespace Text

variable {xs ys us vs : List Char} {before same before' same' : Prop}

/-- Whether two texts of one length are in the order of what they stand for. -/
structure Sorts (xs ys : List Char) (before same : Prop) : Prop where
  length : xs.length = ys.length
  lt : xs < ys ↔ before
  eq : xs = ys ↔ same

/-- Texts with fronts of one length are ordered by these first. -/
theorem append_lt_append_iff (h : xs.length = ys.length) :
    xs ++ us < ys ++ vs ↔ xs < ys ∨ xs = ys ∧ us < vs := by
  induction xs generalizing ys with
  | nil =>
    obtain rfl := List.length_eq_zero_iff.mp h.symm
    simp
  | cons x xs ih =>
    obtain ⟨y, ys, rfl⟩ := List.exists_cons_of_length_eq_add_one h.symm
    rw [List.cons_append, List.cons_append, List.cons_lt_cons_iff, List.cons_lt_cons_iff,
      ih (Nat.succ.inj h), List.cons.injEq]
    tauto

/-- The front of a text has more weight than what follows. -/
theorem Sorts.append (h : Sorts xs ys before same) (h' : Sorts us vs before' same') :
    Sorts (xs ++ us) (ys ++ vs) (before ∨ same ∧ before') (same ∧ same') where
  length := by rw [List.length_append, List.length_append, h.length, h'.length]
  lt := by rw [append_lt_append_iff h.length, h.lt, h.eq, h'.lt]
  eq := by
    rw [← h.eq, ← h'.eq]
    exact ⟨fun heq => List.append_inj heq h.length, fun heq => by rw [heq.1, heq.2]⟩

/-- A text sorts with itself. -/
theorem sorts_self (xs : List Char) : Sorts xs xs False True :=
  ⟨rfl, ⟨List.lt_irrefl xs, False.elim⟩, by simp⟩

/-- The conditions of an order may be replaced by equivalent ones. -/
theorem Sorts.congr (h : Sorts xs ys before same) (hbefore : before ↔ before') (hsame : same ↔ same') :
    Sorts xs ys before' same' := ⟨h.length, h.lt.trans hbefore, h.eq.trans hsame⟩

/-- Digits are ordered as their values. -/
theorem lt_iff_of_isAsciiDigit {x y : Char} (hx : isAsciiDigit x = true) (hy : isAsciiDigit y = true) :
    (x < y ↔ asciiDigitValue x < asciiDigitValue y) ∧ (x = y ↔ asciiDigitValue x = asciiDigitValue y) := by
  have hdigit {c : Char} (hc : isAsciiDigit c = true) : 48 ≤ c.toNat :=
    of_decide_eq_true (Bool.and_eq_true_iff.mp hc).1
  have hx' := hdigit hx
  have hy' := hdigit hy
  have hzero : '0'.toNat = 48 := rfl
  unfold asciiDigitValue
  refine ⟨?_, fun h => by rw [h], fun h => Char.toNat_inj.mp (by omega)⟩
  have hlt : x < y ↔ x.toNat < y.toNat := Iff.rfl
  rw [hlt]
  omega

/-- A digit of more weight decides between numbers. -/
theorem weighted_lt_iff {p d e a b : Nat} (ha : a < p) (hb : b < p) :
    p * d + a < p * e + b ↔ d < e ∨ d = e ∧ a < b := by
  obtain hlt | rfl | hlt := Nat.lt_trichotomy d e
  · have hmul := Nat.mul_le_mul_left p (Nat.succ_le_of_lt hlt)
    rw [Nat.mul_succ] at hmul
    omega
  · omega
  · have hmul := Nat.mul_le_mul_left p (Nat.succ_le_of_lt hlt)
    rw [Nat.mul_succ] at hmul
    omega

/-- Equally many digits are in the order of the numbers they write. -/
theorem lt_iff_asciiNat_lt (hxs : ∀ c ∈ xs, isAsciiDigit c = true) (hys : ∀ c ∈ ys, isAsciiDigit c = true)
    (h : xs.length = ys.length) : xs < ys ↔ asciiNat xs < asciiNat ys := by
  induction xs generalizing ys with
  | nil =>
    obtain rfl := List.length_eq_zero_iff.mp h.symm
    simp
  | cons x xs ih =>
    obtain ⟨y, ys, rfl⟩ := List.exists_cons_of_length_eq_add_one h.symm
    obtain ⟨hx, hxs⟩ := List.forall_mem_cons.mp hxs
    obtain ⟨hy, hys⟩ := List.forall_mem_cons.mp hys
    have hlength : xs.length = ys.length := Nat.succ.inj h
    have hsize := asciiNat_lt hxs
    obtain ⟨hlt, heq⟩ := lt_iff_of_isAsciiDigit hx hy
    rw [hlength] at hsize
    rw [List.cons_lt_cons_iff, ih hxs hys hlength, asciiNat_cons, asciiNat_cons, hlength,
      weighted_lt_iff hsize (asciiNat_lt hys), hlt, heq]

/-- Numbers of equally many digits are in their order. -/
theorem sorts_padded {width n k : Nat} (h : (padded width n).length = (padded width k).length) :
    Sorts (padded width n) (padded width k) (n < k) (n = k) where
  length := h
  lt := by
    have hdigits (i : Nat) : ∀ c ∈ padded width i, isAsciiDigit c = true := fun _ hc =>
      Number.isAsciiDigit_of_mem_padded hc
    rw [lt_iff_asciiNat_lt (hdigits n) (hdigits k) h, Number.asciiNat_padded, Number.asciiNat_padded]
  eq := by
    refine ⟨fun heq => ?_, fun heq => by rw [heq]⟩
    rw [← Number.asciiNat_padded width n, heq, Number.asciiNat_padded]

/-- Numbers of two digits sort as these. -/
theorem sorts_two {n k : Nat} (hn : n < 100) (hk : k < 100) :
    Sorts (padded 2 n) (padded 2 k) (n < k) (n = k) :=
  sorts_padded ((Number.length_padded (by omega) hn).trans (Number.length_padded (by omega) hk).symm)

/-- A mark between two parts. -/
theorem Sorts.mark (c : Char) (h : Sorts xs ys before same) (h' : Sorts us vs before' same') :
    Sorts (xs ++ c :: us) (ys ++ c :: vs) (before ∨ same ∧ before') (same ∧ same') :=
  (h.append ((sorts_self [c]).append h')).congr (by simp) (by simp)

end Text

/-! ## Moments -/

namespace Time

namespace Date

variable {d e : Date}

/-- Dates with one ordinal are one date. -/
theorem ordinal_eq_iff (hd : d.isValid = true) (he : e.isValid = true) :
    d.ordinal = e.ordinal ↔ d.year = e.year ∧ d.month = e.month ∧ d.day = e.day := by
  have hsame : d.ordinal = e.ordinal ↔ d = e :=
    ⟨fun h => by rw [← ofOrdinal_ordinal hd, h, ofOrdinal_ordinal he], fun h => by rw [h]⟩
  rw [hsame, ← mk.injEq]

/-- A stored date is as long as its year makes it. -/
theorem length_stored (h : d.isValid = true) : d.stored.toList.length = digitCount d.year + 6 := by
  obtain ⟨-, hmonth, hday⟩ := bounds h
  have htwo {n : Nat} (hn : n < 100) : (padded 2 n).length = 2 := Number.length_padded (by omega) hn
  simp [stored, Number.length_padded_one, htwo hmonth, htwo hday]

/-- Stored dates with years of equally many digits are in the order of the days. -/
theorem sorts_stored (hd : d.isValid = true) (he : e.isValid = true)
    (hyears : digitCount d.year = digitCount e.year) :
    Text.Sorts d.stored.toList e.stored.toList (d.ordinal < e.ordinal) (d.ordinal = e.ordinal) := by
  obtain ⟨-, hmonth, hday⟩ := bounds hd
  obtain ⟨-, hmonth', hday'⟩ := bounds he
  have hyear : (padded 1 d.year).length = (padded 1 e.year).length := by
    rw [Number.length_padded_one, Number.length_padded_one, hyears]
  have hparts := (Text.sorts_padded hyear).mark '-'
    ((Text.sorts_two hmonth hmonth').mark '-' (Text.sorts_two hday hday'))
  have htext (d : Date) : d.stored.toList =
      padded 1 d.year ++ '-' :: (padded 2 d.month ++ '-' :: padded 2 d.day) := by
    simp [stored]
  rw [htext, htext]
  exact hparts.congr (ordinal_lt_iff hd he).symm (ordinal_eq_iff hd he).symm

end Date

namespace Moment

variable {a b u v : Moment}

/-- Times of day are in the order of their seconds. -/
theorem sorts_clockChars (hu : u.isValid = true) (hv : v.isValid = true) :
    Text.Sorts u.clockChars v.clockChars (u.secondOfDay < v.secondOfDay)
      (u.secondOfDay = v.secondOfDay) := by
  obtain ⟨-, hhour, hminute, hsecond, -⟩ := clock_bounds hu
  obtain ⟨-, hhour', hminute', hsecond', -⟩ := clock_bounds hv
  have htwo {n k : Nat} (hn : n < 60) (hk : k < 60) :
      Text.Sorts (padded 2 n) (padded 2 k) (n < k) (n = k) := Text.sorts_two (by omega) (by omega)
  have hparts := (htwo (hhour.trans (by decide)) (hhour'.trans (by decide))).mark ':'
    ((htwo hminute hminute').mark ':' (htwo hsecond hsecond'))
  have htext (m : Moment) : m.clockChars =
      padded 2 m.hour ++ ':' :: (padded 2 m.minute ++ ':' :: padded 2 m.second) := by
    simp [clockChars]
  rw [htext, htext]
  unfold secondOfDay
  refine hparts.congr ?_ ?_ <;> omega

/-- A stored moment has as many characters as its year has digits, and 15 more. -/
theorem length_storedChars (h : u.isValid = true) :
    u.storedChars.length = digitCount u.date.year + 15 := by
  obtain ⟨hdate, hhour, hminute, hsecond, -⟩ := clock_bounds h
  have htwo {n : Nat} (hn : n < 60) : (padded 2 n).length = 2 :=
    Number.length_padded (by omega) (by omega)
  simp [storedChars, clockChars, Date.length_stored hdate, htwo (hhour.trans (by decide)), htwo hminute,
    htwo hsecond]

/-- Stored texts with years of equally many digits are in the order of the seconds they show. -/
theorem sorts_storedChars (hu : u.isValid = true) (hv : v.isValid = true)
    (hyears : digitCount u.date.year = digitCount v.date.year) :
    Text.Sorts u.storedChars v.storedChars (u.localSeconds < v.localSeconds)
      (u.localSeconds = v.localSeconds) := by
  have hdates := Date.sorts_stored (clock_bounds hu).1 (clock_bounds hv).1 hyears
  have hday := secondOfDay_lt hu
  have hday' := secondOfDay_lt hv
  refine (hdates.mark ' ' (sorts_clockChars hu hv)).congr ?_ ?_
  · unfold localSeconds
    omega
  · unfold localSeconds
    omega

/-- The stored text of a moment that knows its offset is that of the same instant in UTC. -/
theorem IsUtcOf.storedMoment (ha : a.isValid = true) (hoffset : a.offset.isSome = true) (hu : u.IsUtcOf a) :
    Value.storedMoment true a = .ok (String.ofList u.storedChars) := by
  simp [Value.storedMoment, stored?, hoffset, hu.toUtc? ha hoffset]

/-- The stored texts of two moments have one length, and are in the order of the seconds, exactly if
the years in UTC have equally many digits. -/
theorem storedMoment_sorts_iff (ha : a.isValid = true) (hb : b.isValid = true)
    (ha' : a.offset.isSome = true) (hb' : b.offset.isSome = true) (hu : u.IsUtcOf a) (hv : v.IsUtcOf b) :
    ∃ s t, Value.storedMoment true a = .ok s ∧ Value.storedMoment true b = .ok t ∧
      (s.length = t.length ∧ (s < t ↔ a.seconds < b.seconds) ↔
        digitCount u.date.year = digitCount v.date.year) := by
  refine ⟨_, _, hu.storedMoment ha ha', hv.storedMoment hb hb', ?_⟩
  rw [String.length_ofList, String.length_ofList, String.lt_iff_toList_lt, String.toList_ofList,
    String.toList_ofList]
  constructor
  · rintro ⟨hlength, -⟩
    rw [length_storedChars hu.valid, length_storedChars hv.valid] at hlength
    omega
  · intro hyears
    have hsorts := sorts_storedChars hu.valid hv.valid hyears
    rw [(hu.parts ha).1, (hv.parts hb).1] at hsorts
    exact ⟨hsorts.length, hsorts.lt⟩

/-- The last second of a year, written down an hour east of UTC, and the first of the next one:
their texts sort as they do. -/
theorem storedMoment_sorts_newYear :
    let a : Moment := ⟨⟨2024, 1, 1⟩, 0, 59, 59, 7, some 3600⟩
    let b : Moment := ⟨⟨2024, 1, 1⟩, 0, 0, 0, 0, some 0⟩
    let u : Moment := ⟨⟨2023, 12, 31⟩, 23, 59, 59, 7, some 0⟩
    a.isValid = true ∧ b.isValid = true ∧ u.IsUtcOf a ∧ b.IsUtcOf b ∧ digitCount 2023 = digitCount 2024 ∧
      ∃ s t, Value.storedMoment true a = .ok s ∧ Value.storedMoment true b = .ok t ∧
        s.length = t.length ∧ (s < t ↔ a.seconds < b.seconds) := by
  intro a b u
  have ha : a.isValid = true := by decide
  have hb : b.isValid = true := by decide
  have hu : u.IsUtcOf a := ⟨by decide, rfl, by decide⟩
  have hv : b.IsUtcOf b := ⟨hb, rfl, rfl⟩
  have hyears : digitCount 2023 = digitCount 2024 := by decide
  obtain ⟨s, t, hs, ht, hsorts⟩ := storedMoment_sorts_iff ha hb rfl rfl hu hv
  exact ⟨ha, hb, hu, hv, hyears, s, t, hs, ht, hsorts.mpr hyears⟩

/-- The stored text of a year of three digits is shorter than that of a later one, and greater. -/
theorem storedMoment_unsorted :
    let a : Moment := ⟨⟨987, 6, 5⟩, 0, 0, 0, 0, some 0⟩
    let b : Moment := ⟨⟨1000, 1, 1⟩, 0, 0, 0, 0, some 0⟩
    a.isValid = true ∧ b.isValid = true ∧ a.IsUtcOf a ∧ b.IsUtcOf b ∧ a.seconds < b.seconds ∧
      ∃ s t : String, Value.storedMoment true a = .ok s ∧ Value.storedMoment true b = .ok t ∧
        s.length < t.length ∧ t < s := by
  intro a b
  have ha : a.isValid = true := by decide
  have hb : b.isValid = true := by decide
  have hu : a.IsUtcOf a := ⟨ha, rfl, rfl⟩
  have hv : b.IsUtcOf b := ⟨hb, rfl, rfl⟩
  have hlength : (String.ofList a.storedChars).length < (String.ofList b.storedChars).length := by
    rw [String.length_ofList, String.length_ofList]
    decide
  have hlt : String.ofList b.storedChars < String.ofList a.storedChars := by
    rw [String.lt_iff_toList_lt, String.toList_ofList, String.toList_ofList]
    decide
  exact ⟨ha, hb, hu, hv, by decide, _, _, hu.storedMoment ha rfl, hv.storedMoment hb rfl, hlength, hlt⟩

end Moment

end Time

end Quarry
