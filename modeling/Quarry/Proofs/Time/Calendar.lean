import Mathlib.Algebra.GroupWithZero.Nat
import Mathlib.Algebra.Order.Group.Nat
import Mathlib.Data.List.Basic
import Quarry.Time.Calendar

/-!
# The numbers of dates

A date that exists is the date with its number: the cycles of 400, 100 and 4 years are found from
the number because each of them is followed by the next before it could be taken for longer. Later
dates have greater numbers, since the days of a month, and of a year, end before those of the next
begin.
-/

set_option autoImplicit false

namespace Quarry.Time

/-- The position of a day within its year, counted from 0. -/
theorem findMonth_of_lt {lengths : List Nat} {i len : Nat} (hlen : lengths[i]? = some len) {r : Nat}
    (hr : r < len) (first : Nat) :
    findMonth lengths first ((lengths.take i).sum + r) = (first + i, r + 1) := by
  induction lengths generalizing i first with
  | nil => simp at hlen
  | cons n rest ih =>
    cases i with
    | zero =>
      obtain rfl : n = len := by simpa using hlen
      simp [findMonth, hr]
    | succ i =>
      have hskip : ¬n + (rest.take i).sum + r < n := by omega
      have hback : n + (rest.take i).sum + r - n = (rest.take i).sum + r := by omega
      rw [List.take_succ_cons, List.sum_cons, findMonth, if_neg hskip, hback, ih (by simpa using hlen)]
      simp only [Prod.mk.injEq, and_true]
      omega

/-- The days before a month are those of the months before it. -/
theorem daysBeforeMonth_eq (y m : Nat) :
    daysBeforeMonth y m = ((monthLengths y).take (m - 1)).sum := by
  rw [daysBeforeMonth, List.sum_eq_foldl]

/-- The number of days in a year. -/
def yearLength (y : Nat) : Nat := if isLeap y then 366 else 365

/-- The months of a year have all its days. -/
theorem sum_monthLengths (y : Nat) : (monthLengths y).sum = yearLength y := by
  unfold monthLengths yearLength
  split <;> rfl

/-- Years in cycles of 400, 100 and 4. -/
theorem exists_cycles (y : Nat) : ∃ a b c e, y = 400 * a + 100 * b + 4 * c + e ∧ b < 4 ∧ c < 25 ∧ e < 4 :=
  ⟨y / 400, y % 400 / 100, y % 100 / 4, y % 4, by omega, by omega, by omega, by omega⟩

section Cycles

variable {a b c e k : Nat}

/-- The days before a year, by cycles of 400, 100 and 4 years. -/
theorem daysBeforeYear_cycles (hb : b < 4) (hc : c < 25) (he : e < 4) :
    daysBeforeYear (400 * a + 100 * b + 4 * c + e + 1) =
      146097 * a + 36524 * b + 1461 * c + 365 * e := by
  unfold daysBeforeYear
  omega

/-- A year is a leap year by its place in the cycles. -/
theorem isLeap_cycles (hb : b < 4) (hc : c < 25) (he : e < 4) :
    isLeap (400 * a + 100 * b + 4 * c + e + 1) = true ↔ e = 3 ∧ (c = 24 → b = 3) := by
  simp only [isLeap, Bool.and_eq_true, Bool.or_eq_true, beq_iff_eq, bne_iff_ne]
  omega

/-- The year of a day is found by peeling off cycles. -/
theorem ofOrdinal_cycles (hb : b < 4) (hc : c < 25) (he : e < 4)
    (hk : k < yearLength (400 * a + 100 * b + 4 * c + e + 1)) :
    Date.ofOrdinal (146097 * a + 36524 * b + 1461 * c + 365 * e + k + 1) =
      ⟨400 * a + 100 * b + 4 * c + e + 1,
        (findMonth (monthLengths (400 * a + 100 * b + 4 * c + e + 1)) 1 k).1,
        (findMonth (monthLengths (400 * a + 100 * b + 4 * c + e + 1)) 1 k).2⟩ := by
  have hleap := isLeap_cycles (a := a) hb hc he
  have hlast : k < 365 ∨ k = 365 ∧ e = 3 ∧ (c = 24 → b = 3) := by
    unfold yearLength at hk
    split at hk
    · rename_i h
      have := hleap.mp h
      omega
    · omega
  have hcycles : (146097 * a + 36524 * b + 1461 * c + 365 * e + k) / 146097 = a := by omega
  have hrest : (146097 * a + 36524 * b + 1461 * c + 365 * e + k) % 146097 =
      36524 * b + 1461 * c + 365 * e + k := by omega
  have hcenturies : min ((36524 * b + 1461 * c + 365 * e + k) / 36524) 3 = b := by omega
  have hquads : (36524 * b + 1461 * c + 365 * e + k - b * 36524) / 1461 = c := by omega
  have hin : (36524 * b + 1461 * c + 365 * e + k - b * 36524) % 1461 = 365 * e + k := by omega
  have hyears : min ((365 * e + k) / 365) 3 = e := by omega
  have hday : 365 * e + k - e * 365 = k := by omega
  unfold Date.ofOrdinal
  simp only [Nat.add_sub_cancel, hcycles, hrest, hcenturies, hquads, hin, hyears, hday]

end Cycles

namespace Date

variable {d e : Date}

/-- A date that exists has a day of its month. -/
theorem exists_month (h : d.isValid = true) : ∃ i len, d.month = i + 1 ∧
    (monthLengths d.year)[i]? = some len ∧ 1 ≤ d.day ∧ d.day ≤ len := by
  obtain ⟨⟨-, hfirst⟩, hlast⟩ : ((1 ≤ d.year ∧ d.year ≤ maxYear) ∧ 1 ≤ d.day) ∧
      d.day ≤ daysInMonth d.year d.month := by simpa [isValid] using h
  cases hmonth : d.month with
  | zero =>
    rw [hmonth, daysInMonth] at hlast
    omega
  | succ i =>
    rw [hmonth, daysInMonth] at hlast
    cases hlen : (monthLengths d.year)[i]? with
    | none =>
      rw [hlen, Option.getD_none] at hlast
      omega
    | some len =>
      rw [hlen, Option.getD_some] at hlast
      exact ⟨i, len, rfl, hlen, hfirst, hlast⟩

/-- A valid date has a year of the calendar. -/
theorem year_bounds (h : d.isValid = true) : 1 ≤ d.year ∧ d.year ≤ maxYear := by
  obtain ⟨⟨hyear, -⟩, -⟩ : ((1 ≤ d.year ∧ d.year ≤ maxYear) ∧ 1 ≤ d.day) ∧
      d.day ≤ daysInMonth d.year d.month := by simpa [isValid] using h
  exact hyear

/-- The days of a list of months end before those of a later month begin. -/
theorem sum_take_add_le {lengths : List Nat} {i j len : Nat} (hlen : lengths[i]? = some len)
    (hij : i < j) : (lengths.take i).sum + len ≤ (lengths.take j).sum := by
  obtain ⟨hi, hvalue⟩ := List.getElem?_eq_some_iff.mp hlen
  have hsplit : lengths.take j = lengths.take (i + 1) ++ (lengths.take j).drop (i + 1) := by
    have hparts := List.take_append_drop (i + 1) (lengths.take j)
    rw [List.take_take, Nat.min_eq_left (show i + 1 ≤ j from hij)] at hparts
    exact hparts.symm
  rw [hsplit, List.take_succ_eq_append_getElem hi, hvalue]
  simp

/-- A date is a day of its year. -/
theorem day_lt_yearLength (h : d.isValid = true) :
    daysBeforeMonth d.year d.month + d.day ≤ yearLength d.year := by
  obtain ⟨i, len, hmonth, hlen, -, hlast⟩ := exists_month h
  obtain ⟨hi, -⟩ := List.getElem?_eq_some_iff.mp hlen
  have hle := sum_take_add_le hlen hi
  rw [List.take_length, sum_monthLengths] at hle
  rw [daysBeforeMonth_eq, hmonth, Nat.add_sub_cancel]
  omega

/-- The date with the number of a date is the date. -/
theorem ofOrdinal_ordinal (h : d.isValid = true) : ofOrdinal d.ordinal = d := by
  obtain ⟨i, len, hmonth, hlen, hfirst, hlast⟩ := exists_month h
  obtain ⟨a, b, c, e, hyear, hb, hc, he⟩ := exists_cycles (d.year - 1)
  have hdays := day_lt_yearLength h
  have hbefore : daysBeforeMonth d.year d.month = ((monthLengths d.year).take i).sum := by
    rw [daysBeforeMonth_eq, hmonth, Nat.add_sub_cancel]
  have hyear' : d.year = 400 * a + 100 * b + 4 * c + e + 1 := by
    have := (year_bounds h).1
    omega
  have hordinal : d.ordinal = 146097 * a + 36524 * b + 1461 * c + 365 * e +
      (daysBeforeMonth d.year d.month + (d.day - 1)) + 1 := by
    rw [ordinal, hyear', daysBeforeYear_cycles hb hc he]
    omega
  rw [hordinal, ofOrdinal_cycles hb hc he (by rw [← hyear']; omega), ← hyear', hbefore,
    findMonth_of_lt hlen (by omega)]
  obtain ⟨year, month, day⟩ := d
  simp only [mk.injEq, true_and] at hmonth hfirst ⊢
  omega

/-- A year begins when the one before is over. -/
theorem daysBeforeYear_succ {y : Nat} (hy : 1 ≤ y) :
    daysBeforeYear (y + 1) = daysBeforeYear y + yearLength y := by
  obtain ⟨a, b, c, e, hyear, hb, hc, he⟩ := exists_cycles (y - 1)
  obtain rfl : y = 400 * a + 100 * b + 4 * c + e + 1 := by omega
  have hleap := isLeap_cycles (a := a) hb hc he
  rw [daysBeforeYear_cycles hb hc he]
  unfold yearLength daysBeforeYear
  split_ifs with h
  · have hlast := hleap.mp h
    omega
  · have hplain := mt hleap.mpr h
    omega

/-- The days of a year end before those of a later one begin. -/
theorem daysBeforeYear_add_le {y z : Nat} (hy : 1 ≤ y) (h : y < z) :
    daysBeforeYear y + yearLength y ≤ daysBeforeYear z := by
  rw [← daysBeforeYear_succ hy]
  induction z, h using Nat.le_induction with
  | base => exact Nat.le_refl _
  | succ z hz ih =>
    have hnext := daysBeforeYear_succ (y := z) (by omega)
    omega

/-- Whether a date is before another, by year, month and day. -/
def IsBefore (d e : Date) : Prop :=
  d.year < e.year ∨ d.year = e.year ∧ (d.month < e.month ∨ d.month = e.month ∧ d.day < e.day)

/-- An earlier date has a smaller ordinal. -/
theorem IsBefore.ordinal_lt (hd : d.isValid = true) (he : e.isValid = true) (h : d.IsBefore e) :
    d.ordinal < e.ordinal := by
  obtain ⟨i, len, hmonth, hlen, hfirst, hlast⟩ := exists_month hd
  obtain ⟨j, len', hmonth', hlen', hfirst', hlast'⟩ := exists_month he
  obtain hyear | ⟨hyear, hmonths | ⟨hmonths, hday⟩⟩ := h
  · have hle := daysBeforeYear_add_le (year_bounds hd).1 hyear
    have hdays := day_lt_yearLength hd
    unfold ordinal
    omega
  · have hle := sum_take_add_le hlen (show i < j by omega)
    unfold ordinal
    rw [hyear] at hle ⊢
    rw [daysBeforeMonth_eq, daysBeforeMonth_eq, hmonth, hmonth', Nat.add_sub_cancel, Nat.add_sub_cancel]
    omega
  · unfold ordinal
    rw [hyear, hmonths]
    omega

/-- Dates are numbered in their order. -/
theorem ordinal_lt_iff (hd : d.isValid = true) (he : e.isValid = true) :
    d.ordinal < e.ordinal ↔ d.IsBefore e := by
  refine ⟨fun h => ?_, IsBefore.ordinal_lt hd he⟩
  by_contra hnot
  have hcases : e.IsBefore d ∨ d = e := by
    unfold IsBefore at hnot ⊢
    rw [mk.injEq]
    omega
  obtain hbefore | rfl := hcases
  · have := hbefore.ordinal_lt he hd
    omega
  · omega

/-- A valid date has an ordinal of the calendar. -/
theorem ordinal_bounds (h : d.isValid = true) : 1 ≤ d.ordinal ∧ d.ordinal ≤ maxOrdinal := by
  obtain ⟨i, len, -, -, hfirst, -⟩ := exists_month h
  have hdays := day_lt_yearLength h
  obtain ⟨hone, hlast⟩ := year_bounds h
  have hle := daysBeforeYear_add_le hone (Nat.lt_succ_of_le hlast)
  have hend : daysBeforeYear (Nat.succ maxYear) = maxOrdinal := rfl
  unfold ordinal
  omega

end Date

end Quarry.Time
