import Mathlib.Algebra.GroupWithZero.Nat
import Mathlib.Tactic.SplitIfs
import Quarry.Number.Binary64
import Quarry.Proofs.Number.Equal

/-!
# Integers as floating-point numbers

An integer below `2 ^ 53` is a floating-point number itself. A larger one is cut into a mantissa of
53 bits and the rest, which decides to which side it is rounded. So an integer goes through a
floating-point number unchanged if 53 bits of it hold all that is not zero
(`toInt?_ofInt_eq_some_iff`), and there is a finite number for it unless it is at least as close to
the first power beyond all of them (`isFinite_ofFraction_iff`).
-/

set_option autoImplicit false

namespace Quarry.Number

/-! ## Rounding -/

/-- Rounding goes down or up. -/
theorem roundHalfEven_cases (n d : Nat) :
    roundHalfEven n d = n / d ∨ roundHalfEven n d = n / d + 1 := by
  unfold roundHalfEven
  dsimp only
  split_ifs with hup
  · exact .inr rfl
  · exact .inl rfl

/-- What is divisible is not rounded. -/
theorem roundHalfEven_of_dvd {n d : Nat} (hd : 0 < d) (hdvd : d ∣ n) :
    roundHalfEven n d = n / d := by
  have hrest : n % d = 0 := Nat.mod_eq_zero_of_dvd hdvd
  have htie : (0 == d) = false := beq_eq_false_iff_ne.mpr (by omega)
  simp [roundHalfEven, hrest, htie]

/-- From an odd quotient a tie goes up. -/
theorem roundHalfEven_odd {n d : Nat} (hodd : n / d % 2 = 1) :
    roundHalfEven n d = n / d + 1 ↔ d ≤ 2 * (n % d) := by
  simp only [roundHalfEven, hodd, beq_self_eq_true, Bool.and_true, Bool.or_eq_true,
    decide_eq_true_eq, beq_iff_eq]
  split_ifs with hup
  · exact iff_of_true rfl (by omega)
  · exact iff_of_false (by omega) (by omega)

namespace Binary64

/-- The number that a mantissa and an exponent are after rounding, which may have filled one more
bit. -/
def carried (negative : Bool) (m : Nat) (e : Int) : Binary64 :=
  let (m, e) := if m = Nat.pow 2 53 then (Nat.pow 2 52, e + 1) else (m, e)
  if maxExponent < e then .infinite negative else .finite negative m e

/-- The places of a whole number behind the first 53 bits. -/
def placesOf (n : Nat) : Nat := Nat.log2 n - 52

variable {n : Nat}

/-- The exponent for a whole number leaves it 53 digits. -/
theorem exponentFor_whole (hn : n ≠ 0) : exponentFor n 1 = (Nat.log2 n : Int) - 52 := by
  have hlow : 2 ^ Nat.log2 n ≤ n := Nat.log2_self_le hn
  have hone : Nat.log2 1 = 0 := rfl
  have hfits : (scaled n 2 (-((Nat.log2 n : Int) - 52))).2 * 2 ^ 52 ≤
      (scaled n 2 (-((Nat.log2 n : Int) - 52))).1 := by
    unfold scaled
    split_ifs with hlarge
    · have hexponent : (-((Nat.log2 n : Int) - 52)).natAbs = Nat.log2 n - 52 := by omega
      have hsplit : 2 ^ (Nat.log2 n - 52) * 2 ^ 52 = 2 ^ Nat.log2 n := by
        rw [← Nat.pow_add, Nat.sub_add_cancel (by omega)]
      rw [hexponent]
      exact Nat.le_trans (Nat.le_of_eq hsplit) hlow
    · have hexponent : (-((Nat.log2 n : Int) - 52)).toNat = 52 - Nat.log2 n := by omega
      have hsplit : 2 ^ Nat.log2 n * 2 ^ (52 - Nat.log2 n) = 2 ^ 52 := by
        rw [← Nat.pow_add, Nat.add_sub_cancel' (by omega)]
      rw [hexponent, Nat.one_mul, ← hsplit]
      exact Nat.mul_le_mul_right _ hlow
  have hshort : ¬(scaled n 2 (-((Nat.log2 n : Int) - 52))).1 <
      (scaled n 2 (-((Nat.log2 n : Int) - 52))).2 * 1 * Nat.pow 2 52 := by
    rw [Nat.mul_one]
    exact Nat.not_lt.mpr hfits
  have hlowest : ¬(Nat.log2 n : Int) - 52 < minExponent := by
    unfold minExponent
    omega
  unfold exponentFor
  rw [hone, Int.natCast_zero, Int.sub_zero]
  dsimp only
  rw [if_neg hshort, if_neg hlowest]

/-- A whole number of at most 53 bits is the mantissa, but for zeros behind it. -/
theorem ofFraction_short (negative : Bool) (hn : n ≠ 0) (hshort : n < 2 ^ 53) :
    ofFraction negative n 1 =
      .finite negative (n * Nat.pow 2 (52 - Nat.log2 n)) ((Nat.log2 n : Int) - 52) := by
  have hlog : Nat.log2 n < 53 := (Nat.log2_lt hn).mpr hshort
  have hscaled : scaled n 2 (-((Nat.log2 n : Int) - 52)) =
      (n * Nat.pow 2 (52 - Nat.log2 n), 1) := by
    have hexponent : (-((Nat.log2 n : Int) - 52)).toNat = 52 - Nat.log2 n := by omega
    rw [scaled, if_neg (by omega), hexponent]
  have hround : roundHalfEven (n * Nat.pow 2 (52 - Nat.log2 n)) (1 * 1) =
      n * Nat.pow 2 (52 - Nat.log2 n) := by
    rw [roundHalfEven_of_dvd (by omega) (Nat.one_dvd _), Nat.div_one]
  have hmantissa : n * Nat.pow 2 (52 - Nat.log2 n) ≠ Nat.pow 2 53 := by
    have hbits : n < 2 ^ (Nat.log2 n + 1) := Nat.lt_log2_self
    have hsplit : 2 ^ (Nat.log2 n + 1) * 2 ^ (52 - Nat.log2 n) = 2 ^ 53 := by
      rw [← Nat.pow_add]
      congr 1
      omega
    have hlt := Nat.mul_lt_mul_of_pos_right hbits (Nat.pow_pos (n := 52 - Nat.log2 n) Nat.two_pos)
    exact Nat.ne_of_lt (Nat.lt_of_lt_of_le hlt (Nat.le_of_eq hsplit))
  have hlargest : ¬maxExponent < (Nat.log2 n : Int) - 52 := by
    unfold maxExponent
    omega
  unfold ofFraction
  rw [if_neg hn, exponentFor_whole hn]
  dsimp only
  rw [hscaled]
  dsimp only
  rw [hround, if_neg hmantissa]
  dsimp only
  rw [if_neg hlargest]

/-- A longer one is rounded at the place where its mantissa ends. -/
theorem ofFraction_long (negative : Bool) (hlong : 2 ^ 53 ≤ n) :
    ofFraction negative n 1 =
      carried negative (roundHalfEven n (2 ^ placesOf n)) (placesOf n) := by
  have hn : n ≠ 0 := by omega
  have hlog : 53 ≤ Nat.log2 n := (Nat.le_log2 hn).mpr hlong
  have hplaces : (placesOf n : Int) = (Nat.log2 n : Int) - 52 := by
    unfold placesOf
    omega
  have hscaled : scaled n 2 (-(placesOf n : Int)) = (n, 2 ^ placesOf n) := by
    rw [scaled, if_pos (by omega), Int.natAbs_neg, Int.natAbs_natCast]
    rfl
  unfold ofFraction carried
  rw [if_neg hn, exponentFor_whole hn, ← hplaces]
  dsimp only
  rw [hscaled, Nat.mul_one]

/-! ## Integers with a finite number -/

variable {negative : Bool} {m : Nat} {e : Int}

/-- A bit more than there is room for: the power of two with an exponent that is larger by one. -/
theorem carried_full : carried negative (Nat.pow 2 53) e =
    if 970 < e then .infinite negative else .finite negative (Nat.pow 2 52) (e + 1) := by
  have hlimit : maxExponent < e + 1 ↔ 970 < e := by
    unfold maxExponent
    omega
  simp only [carried, if_true, hlimit]

/-- Nothing is carried unless all digits are full. -/
theorem carried_of_ne (hm : m ≠ Nat.pow 2 53) : carried negative m e =
    if 971 < e then .infinite negative else .finite negative m e := by
  unfold carried
  rw [if_neg hm]
  rfl

/-- What is carried is finite up to the largest exponent. -/
theorem isFinite_carried_iff :
    (carried negative m e).isFinite = true ↔ e ≤ (if m = Nat.pow 2 53 then 970 else 971) := by
  by_cases hm : m = Nat.pow 2 53
  · rw [if_pos hm, hm, carried_full]
    split_ifs with hlarge
    · exact iff_of_false (by simp [isFinite]) (by omega)
    · exact iff_of_true rfl (by omega)
  · rw [if_neg hm, carried_of_ne hm]
    split_ifs with hlarge
    · exact iff_of_false (by simp [isFinite]) (by omega)
    · exact iff_of_true rfl (by omega)

/-- What is not finite is beyond all numbers. -/
theorem carried_eq_infinite (hfinite : (carried negative m e).isFinite = false) :
    carried negative m e = .infinite negative := by
  by_cases hm : m = Nat.pow 2 53
  · rw [hm, carried_full] at hfinite ⊢
    split_ifs at hfinite ⊢ with hlarge
    · rfl
    · exact nomatch hfinite
  · rw [carried_of_ne hm] at hfinite ⊢
    split_ifs at hfinite ⊢ with hlarge
    · rfl
    · exact nomatch hfinite

/-- With a place for each bit up to the last, the number is carried over to the first power beyond
all if it is halfway there. -/
theorem roundHalfEven_last_iff (hn : n < 2 ^ 1024) :
    roundHalfEven n (2 ^ 971) = Nat.pow 2 53 ↔ ¬n + 2 ^ 970 < 2 ^ 1024 := by
  have hunit : 2 ^ 971 = 2 * 2 ^ 970 := by rw [Nat.mul_comm, ← Nat.pow_succ]
  have htop : 2 ^ 1024 = 2 ^ 54 * 2 ^ 970 := by rw [← Nat.pow_add]
  have hpos : 0 < 2 ^ 970 := by apply Nat.two_pow_pos
  rw [htop] at hn ⊢
  rw [hunit]
  -- the powers must not be computed
  generalize 2 ^ 970 = half at *
  have hquotient : n / (2 * half) < 2 ^ 53 := (Nat.div_lt_iff_lt_mul (by omega)).mpr (by omega)
  have hsplit := Nat.div_add_mod n (2 * half)
  have hpow : Nat.pow 2 53 = 2 ^ 53 := rfl
  by_cases hlast : n / (2 * half) = 2 ^ 53 - 1
  · have hodd : n / (2 * half) % 2 = 1 := by
      rw [hlast]
      decide
    have hround := roundHalfEven_odd hodd
    rw [hlast] at hround hsplit
    rw [hpow]
    omega
  · have hbelow : n < (2 ^ 53 - 1) * (2 * half) :=
      (Nat.div_lt_iff_lt_mul (by omega)).mp (by omega)
    have hround := roundHalfEven_cases n (2 * half)
    rw [hpow]
    omega

/-- Without the places behind them, the first 53 bits are left. -/
theorem placesOf_bounds (hlong : 2 ^ 53 ≤ n) :
    2 ^ (placesOf n + 52) ≤ n ∧ n < 2 ^ (placesOf n + 53) := by
  have hn : n ≠ 0 := by omega
  have hfifty : 53 ≤ Nat.log2 n := (Nat.le_log2 hn).mpr hlong
  have hlog : Nat.log2 n = placesOf n + 52 := by
    unfold placesOf
    omega
  have hlower : 2 ^ Nat.log2 n ≤ n := Nat.log2_self_le hn
  have hupper : n < 2 ^ (Nat.log2 n + 1) := Nat.lt_log2_self
  rw [hlog] at hlower hupper
  exact ⟨hlower, hupper⟩

/-- What is not a finite number is at least half a place beyond the largest one. -/
theorem isFinite_ofFraction_iff (negative : Bool) (n : Nat) :
    (ofFraction negative n 1).isFinite = true ↔ n + 2 ^ 970 < 2 ^ 1024 := by
  have hhalf : 2 ^ 970 ≤ 2 ^ 1023 := by apply Nat.pow_le_pow_right <;> decide
  have hbits : 2 ^ 53 ≤ 2 ^ 1023 := by apply Nat.pow_le_pow_right <;> decide
  have htop : 2 ^ 1024 = 2 * 2 ^ 1023 := by rw [Nat.mul_comm, ← Nat.pow_succ]
  have hpos : 0 < 2 ^ 1023 := by apply Nat.two_pow_pos
  by_cases hzero : n = 0
  · subst hzero
    exact iff_of_true rfl (by omega)
  by_cases hshort : n < 2 ^ 53
  · rw [ofFraction_short negative hzero hshort]
    exact iff_of_true rfl (by omega)
  have hlong : 2 ^ 53 ≤ n := Nat.not_lt.mp hshort
  obtain ⟨hlower, hupper⟩ := placesOf_bounds hlong
  rw [ofFraction_long negative hlong, isFinite_carried_iff]
  obtain hfew | hlast | hmany : placesOf n ≤ 970 ∨ placesOf n = 971 ∨ 972 ≤ placesOf n := by omega
  · have hsmall : 2 ^ (placesOf n + 53) ≤ 2 ^ 1023 := by
      apply Nat.pow_le_pow_right
      · decide
      · omega
    refine iff_of_true ?_ ?_
    · split_ifs <;> omega
    · omega
  · have hplaces : 971 + 53 = 1024 := rfl
    rw [hlast, hplaces] at hupper
    rw [hlast, ← not_iff_not, ← roundHalfEven_last_iff hupper]
    split_ifs with hcarried
    · exact iff_of_true (by decide) hcarried
    · exact iff_of_false (by decide) hcarried
  · have hlarge : 2 ^ 1024 ≤ 2 ^ (placesOf n + 52) := by
      apply Nat.pow_le_pow_right
      · decide
      · omega
    refine iff_of_false ?_ ?_
    · split_ifs <;> omega
    · omega

/-- A number of more than 1024 digits has no finite neighbour. -/
theorem ofFraction_eq_infinite (hlarge : 2 ^ 1024 ≤ n) :
    ofFraction negative n 1 = .infinite negative := by
  have hlong : 2 ^ 53 ≤ n := by
    have hbits : 2 ^ 53 ≤ 2 ^ 1024 := by apply Nat.pow_le_pow_right <;> decide
    omega
  have hfinite := isFinite_ofFraction_iff negative n
  rw [ofFraction_long negative hlong] at hfinite ⊢
  refine carried_eq_infinite (Bool.eq_false_iff.mpr fun hbelow => ?_)
  have hless := hfinite.mp hbelow
  omega

/-- A number of more digits is not below the power of ten. -/
theorem pow_le_of_digitCount {a b : Nat} (hpos : 0 < a * b) (hmany : a * b < digitCount n) :
    (10 ^ a) ^ b ≤ n := by
  rw [← Nat.not_le, digitCount_le_iff hpos, Nat.pow_mul] at hmany
  exact Nat.not_lt.mp hmany

/-- A whole number is read in the same way from its digits. -/
theorem ofScientific_whole (negative : Bool) (n : Nat) :
    ofScientific negative n 0 = ofFraction negative n 1 := by
  unfold ofScientific
  by_cases hzero : n = 0
  · subst hzero
    rfl
  rw [if_neg hzero, Int.zero_add]
  dsimp only
  have hscaled : scaled n 10 0 = (n, 1) := by simp [scaled]
  split_ifs with hmany hfew
  · -- A number with so many digits is beyond all that are finite.
    have hdigits : 62 * 5 < digitCount n := by omega
    have hpower : 2 ^ 1024 ≤ (10 ^ 62) ^ 5 :=
      calc 2 ^ 1024 ≤ 2 ^ 1025 := by apply Nat.pow_le_pow_right <;> decide
        _ = (2 ^ 205) ^ 5 := by rw [← Nat.pow_mul]
        _ ≤ (10 ^ 62) ^ 5 := by
          apply Nat.pow_le_pow_left
          decide
    have hmost : (10 ^ 62) ^ 5 ≤ n := pow_le_of_digitCount (by decide) hdigits
    exact (ofFraction_eq_infinite (Nat.le_trans hpower hmost)).symm
  · omega
  · rw [hscaled]

/-! ## Integers that are floating-point numbers -/

/-- A finite number with a positive exponent is whole. -/
theorem toInt?_finite (negative : Bool) (m k : Nat) :
    (finite negative m (k : Int)).toInt? = some (Exact.signedNum negative (m * 2 ^ k)) := by
  have hscaled : scaled m 2 (k : Int) = (m * 2 ^ k, 1) := by
    rw [scaled, if_neg (by omega), Int.toNat_natCast]
    rfl
  simp [toInt?, hscaled, Nat.mod_one]

/-- A number that was carried is as large as before. -/
theorem toInt?_carried {k : Nat} (hfinite : (carried negative m k).isFinite = true) :
    (carried negative m k).toInt? = some (Exact.signedNum negative (m * 2 ^ k)) := by
  have hsmall : (k : Int) ≤ if m = Nat.pow 2 53 then 970 else 971 :=
    isFinite_carried_iff.mp hfinite
  by_cases hm : m = Nat.pow 2 53
  · have hfull : Nat.pow 2 52 * 2 ^ (k + 1) = m * 2 ^ k := by
      rw [hm, Nat.pow_succ]
      show 2 ^ 52 * (2 ^ k * 2) = 2 ^ 53 * 2 ^ k
      omega
    rw [if_pos hm] at hsmall
    rw [← hfull, hm, carried_full, if_neg (Int.not_lt.mpr hsmall), ← Int.natCast_succ, toInt?_finite]
  · rw [if_neg hm] at hsmall
    rw [carried_of_ne hm, if_neg (Int.not_lt.mpr hsmall), toInt?_finite]

end Binary64

/-- An integer all of whose digits but zeros at the end are in 53 bits, below the first power of two
that is beyond all floating-point numbers. -/
def FitsBinary64 (n : Int) : Prop :=
  n.natAbs < 2 ^ 1024 ∧ ∃ m k, m < 2 ^ 53 ∧ n.natAbs = m * 2 ^ k

namespace Binary64

/-- A number is made of its sign and its size. -/
theorem signedNum_natAbs (n : Int) : Exact.signedNum (decide (n < 0)) n.natAbs = n := by
  unfold Exact.signedNum
  split_ifs with hsign
  · have hneg := of_decide_eq_true hsign
    omega
  · have hnonneg : ¬n < 0 := fun hneg => hsign (decide_eq_true hneg)
    omega

/-- A number with a given sign is as large as its size. -/
theorem signedNum_eq_iff {n : Int} {m : Nat} :
    Exact.signedNum (decide (n < 0)) m = n ↔ m = n.natAbs := by
  constructor
  · intro h
    unfold Exact.signedNum at h
    split_ifs at h <;> omega
  · rintro rfl
    exact signedNum_natAbs n

/-- What was divisible by a power of two is whole after the division. -/
theorem toInt?_finite_neg (negative : Bool) (m k : Nat) :
    (finite negative (m * Nat.pow 2 k) (-(k : Int))).toInt? = some (Exact.signedNum negative m) := by
  have hpos : 0 < Nat.pow 2 k := Nat.two_pow_pos k
  have hscaled : scaled (m * Nat.pow 2 k) 2 (-(k : Int)) = (m * Nat.pow 2 k, Nat.pow 2 k) := by
    unfold scaled
    split_ifs with hneg
    · rw [Int.natAbs_neg, Int.natAbs_natCast]
    · obtain rfl : k = 0 := by omega
      simp
  have hwhole : m * Nat.pow 2 k % Nat.pow 2 k = 0 := Nat.mul_mod_left m _
  have hcut : m * Nat.pow 2 k / Nat.pow 2 k = m := Nat.mul_div_cancel m hpos
  simp only [toInt?, hscaled, hwhole, hcut, beq_self_eq_true, if_true]

/-- Zero is whole. -/
theorem toInt?_zero (negative : Bool) : (zero negative).toInt? = some 0 := by
  have hscaled : (scaled 0 2 minExponent).1 = 0 := rfl
  simp only [zero, toInt?, hscaled, Nat.zero_mod, Nat.zero_div, beq_self_eq_true, if_true]
  cases negative <;> rfl

/-- A short integer has the mantissa that it is. -/
theorem toInt?_ofInt_of_lt {n : Int} (hshort : n.natAbs < 2 ^ 53) : (ofInt n).toInt? = some n := by
  by_cases hzero : n = 0
  · subst hzero
    exact toInt?_zero false
  · have hne : n.natAbs ≠ 0 := Int.natAbs_ne_zero.mpr hzero
    have hlog : Nat.log2 n.natAbs < 53 := (Nat.log2_lt hne).mpr hshort
    have hexponent : (Nat.log2 n.natAbs : Int) - 52 = -((52 - Nat.log2 n.natAbs : Nat) : Int) := by
      omega
    rw [ofInt, ofFraction_short _ hne hshort, hexponent, toInt?_finite_neg, signedNum_natAbs]

/-- A longer one is rounded to itself if there is nothing behind its first 53 bits. -/
theorem toInt?_ofInt_of_le {n : Int} (hlong : 2 ^ 53 ≤ n.natAbs) :
    (ofInt n).toInt? = some n ↔ n.natAbs < 2 ^ 1024 ∧ 2 ^ placesOf n.natAbs ∣ n.natAbs := by
  obtain ⟨hlower, hupper⟩ := placesOf_bounds hlong
  have hfinite := isFinite_ofFraction_iff (decide (n < 0)) n.natAbs
  rw [ofFraction_long _ hlong] at hfinite
  rw [ofInt, ofFraction_long _ hlong]
  constructor
  · intro hsame
    have hcarried : (carried (decide (n < 0)) (roundHalfEven n.natAbs (2 ^ placesOf n.natAbs))
        (placesOf n.natAbs)).isFinite = true := by
      cases hrounded : carried (decide (n < 0)) (roundHalfEven n.natAbs (2 ^ placesOf n.natAbs))
          (placesOf n.natAbs) with
      | finite => rfl
      | _ => rw [hrounded] at hsame; exact nomatch hsame
    rw [toInt?_carried hcarried, Option.some.injEq, signedNum_eq_iff] at hsame
    have hlt := hfinite.mp hcarried
    exact ⟨Nat.lt_of_le_of_lt (Nat.le_add_right _ _) hlt,
      _, hsame.symm.trans (Nat.mul_comm _ _)⟩
  · rintro ⟨hlt, hdvd⟩
    have hround := roundHalfEven_of_dvd (Nat.two_pow_pos (placesOf n.natAbs)) hdvd
    have hmantissa : n.natAbs / 2 ^ placesOf n.natAbs < 2 ^ 53 := by
      rw [Nat.div_lt_iff_lt_mul (Nat.two_pow_pos _), ← Nat.pow_add, Nat.add_comm]
      exact hupper
    have hplaces : placesOf n.natAbs ≤ 971 := by
      refine Nat.not_lt.mp fun hmany => ?_
      have hlarge : 2 ^ 1024 ≤ 2 ^ (placesOf n.natAbs + 52) := by
        apply Nat.pow_le_pow_right
        · decide
        · omega
      omega
    have hcarried : (carried (decide (n < 0)) (n.natAbs / 2 ^ placesOf n.natAbs)
        (placesOf n.natAbs)).isFinite = true := by
      have hplain : n.natAbs / 2 ^ placesOf n.natAbs ≠ Nat.pow 2 53 := Nat.ne_of_lt hmantissa
      rw [isFinite_carried_iff, if_neg hplain]
      omega
    rw [hround, toInt?_carried hcarried, Nat.div_mul_cancel hdvd, signedNum_natAbs]

/-- A long number fits exactly if it is not too large and its low digits are zeros. -/
theorem fitsBinary64_iff_of_le {n : Int} (hlong : 2 ^ 53 ≤ n.natAbs) :
    FitsBinary64 n ↔ n.natAbs < 2 ^ 1024 ∧ 2 ^ placesOf n.natAbs ∣ n.natAbs := by
  obtain ⟨hlower, hupper⟩ := placesOf_bounds hlong
  refine and_congr_right fun _ => ?_
  constructor
  · rintro ⟨m, k, hm, hsplit⟩
    -- A mantissa of 53 bits leaves at least as many places.
    have hplaces : placesOf n.natAbs ≤ k := by
      refine Nat.not_lt.mp fun hless => ?_
      have hshort : n.natAbs < 2 ^ 53 * 2 ^ k :=
        hsplit ▸ Nat.mul_lt_mul_of_pos_right hm (Nat.two_pow_pos k)
      have hfew : 2 ^ 53 * 2 ^ k ≤ 2 ^ (placesOf n.natAbs + 52) := by
        rw [← Nat.pow_add]
        exact Nat.pow_le_pow_right Nat.two_pos (by omega)
      omega
    have hdvd := Nat.dvd_mul_left_of_dvd (Nat.pow_dvd_pow 2 hplaces) m
    rwa [← hsplit] at hdvd
  · rintro ⟨m, hsplit⟩
    refine ⟨m, placesOf n.natAbs, ?_, by rw [Nat.mul_comm, ← hsplit]⟩
    have hbelow : 2 ^ placesOf n.natAbs * m < 2 ^ placesOf n.natAbs * 2 ^ 53 :=
      calc 2 ^ placesOf n.natAbs * m = n.natAbs := hsplit.symm
        _ < 2 ^ (placesOf n.natAbs + 53) := hupper
        _ = 2 ^ placesOf n.natAbs * 2 ^ 53 := Nat.pow_add 2 _ 53
    exact Nat.lt_of_mul_lt_mul_left hbelow

/-- The number nearest to an integer is that integer if and only if it has no more than 53 bits. -/
theorem toInt?_ofInt_eq_some_iff (n : Int) : (ofInt n).toInt? = some n ↔ FitsBinary64 n := by
  by_cases hshort : n.natAbs < 2 ^ 53
  · have hbits : 2 ^ 53 ≤ 2 ^ 1024 := by apply Nat.pow_le_pow_right <;> decide
    exact iff_of_true (toInt?_ofInt_of_lt hshort)
      ⟨Nat.lt_of_lt_of_le hshort hbits, n.natAbs, 0, hshort, by rw [Nat.pow_zero, Nat.mul_one]⟩
  · have hlong : 2 ^ 53 ≤ n.natAbs := Nat.not_lt.mp hshort
    rw [toInt?_ofInt_of_le hlong, fitsBinary64_iff_of_le hlong]

end Binary64

end Quarry.Number
