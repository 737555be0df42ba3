import Mathlib.Tactic.SplitIfs
import Quarry.Proofs.Number.Digits

/-!
# Equal numbers

Numbers are compared by their number of digits first, and by their digits only where that leaves
them equal. All the same they are equal exactly when they have one coefficient after their exponents
were lowered to the same one (`Exact.compareSizes_eq_iff`). So equality goes over from one number to
the next, whatever their kinds are (`Exact.equal_trans`).
-/

set_option autoImplicit false

namespace Quarry.Number

/-- A number has few digits exactly if it is small. -/
theorem digitCount_le_iff {n k : Nat} (hk : 0 < k) : digitCount n ≤ k ↔ n < 10 ^ k :=
  Nat.length_toDigits_le_iff (by omega) hk

/-- A number has digits. -/
theorem digitCount_pos (n : Nat) : 0 < digitCount n :=
  List.length_pos_iff.mpr Nat.toDigits_ne_nil

/-- A number has as many digits more as zeros are put behind it. -/
theorem digitCount_mul_pow {c : Nat} (hc : c ≠ 0) (k : Nat) :
    digitCount (c * 10 ^ k) = digitCount c + k := by
  have hcount := digitCount_pos c
  have hzeros : 0 < 10 ^ k := Nat.pow_pos (by omega)
  apply Nat.le_antisymm
  · have hlt : c < 10 ^ digitCount c := (digitCount_le_iff hcount).mp (Nat.le_refl _)
    rw [digitCount_le_iff (by omega), Nat.pow_add]
    exact Nat.mul_lt_mul_of_pos_right hlt hzeros
  · by_contra hless
    have hfewer : digitCount (c * 10 ^ k) ≤ digitCount c - 1 + k := by omega
    have hpos := digitCount_pos (c * 10 ^ k)
    rw [digitCount_le_iff (by omega), Nat.pow_add] at hfewer
    have hlt : c < 10 ^ (digitCount c - 1) := Nat.lt_of_mul_lt_mul_right hfewer
    by_cases hone : digitCount c = 1
    · rw [hone] at hlt
      omega
    · have hsmaller := (digitCount_le_iff (by omega)).mpr hlt
      omega

namespace Exact

variable {c c' : Nat} {e e' low low' : Int}

/-- Lowering an exponent may be done in steps. -/
theorem lowered_lowered (hlow : low ≤ low') (he : low' ≤ e) :
    lowered c e low = lowered c e low' * 10 ^ (low' - low).toNat := by
  have hsum : (e - low).toNat = (e - low').toNat + (low' - low).toNat := by omega
  simp only [lowered, Nat.pow_eq, hsum, Nat.pow_add, Nat.mul_assoc]

/-- It does not matter how far two exponents are lowered. -/
theorem lowered_eq_iff (hlow : low ≤ low') (he : low' ≤ e) (he' : low' ≤ e') :
    lowered c e low = lowered c' e' low ↔ lowered c e low' = lowered c' e' low' := by
  rw [lowered_lowered hlow he, lowered_lowered hlow he']
  exact Nat.mul_left_inj (Nat.pow_pos (by omega)).ne'

/-- Lowering an exponent adds as many digits. -/
theorem digitCount_lowered (hc : c ≠ 0) (he : low ≤ e) :
    (digitCount (lowered c e low) : Int) = digitCount c + (e - low) := by
  rw [lowered, Nat.pow_eq, digitCount_mul_pow hc]
  omega

/-- Sizes are equal when the coefficients are after the exponents were lowered to the same one. -/
theorem compareSizes_eq_iff (he : low ≤ e) (he' : low ≤ e') :
    compareSizes c e c' e' = .eq ↔ lowered c e low = lowered c' e' low := by
  unfold compareSizes
  dsimp only
  split_ifs with hsame hsize
  · rw [Nat.compare_eq_eq]
    simp only [Bool.or_eq_true, beq_iff_eq] at hsame
    obtain (rfl | rfl) | rfl := hsame
    · exact (Nat.mul_left_inj (Nat.pow_pos (by omega)).ne').symm
    · rw [eq_comm (a := lowered 0 e low)]
      simp [lowered, eq_comm]
    · simp [lowered]
  · rw [Nat.compare_eq_eq]
    exact (lowered_eq_iff (le_min he he') (min_le_left e e') (min_le_right e e')).symm
  · simp only [Bool.or_eq_true, beq_iff_eq, not_or] at hsame hsize
    obtain ⟨⟨-, hc⟩, hc'⟩ := hsame
    have hcompare : compare (e + digitCount c) (e' + digitCount c') ≠ .eq := by
      rwa [ne_eq, Int.compare_eq_eq]
    refine iff_of_false hcompare fun hlowered => hsize ?_
    -- Equal coefficients have equally many digits, and lowering leaves the sizes as they are.
    have hdigits := digitCount_lowered hc he
    rw [hlowered, digitCount_lowered hc' he'] at hdigits
    omega

/-- Finite values are equal exactly if they have one sign and, brought to one exponent, one
coefficient. -/
theorem equal_finite_iff {a b : Bool} (he : low ≤ e) (he' : low ≤ e') :
    equal (.finite a c e) (.finite b c' e') = true ↔
      (a && c != 0) = (b && c' != 0) ∧ lowered c e low = lowered c' e' low := by
  unfold equal compare?
  dsimp only
  split
  · rename_i ha hb
    simp [ha, hb]
  · rename_i ha hb
    simp [ha, hb]
  · rename_i ha hb
    simpa [ha, hb] using compareSizes_eq_iff he he'
  · rename_i ha hb
    rw [eq_comm (a := lowered c e low)]
    simpa [ha, hb] using compareSizes_eq_iff he' he

/-- The exact values of integers are ordered as these are. -/
theorem compare?_ofInt (m n : Int) :
    (ofInt m).compare? (.ofInt n) = some (compare m n) := by
  have hsizes (c c' : Nat) : compareSizes c 0 c' 0 = compare c c' := rfl
  have hsigned (k : Int) : (decide (k < 0) && k.natAbs != 0) = decide (k < 0) := by
    by_cases hk : k < 0
    · simp [hk, hk.ne]
    · simp [hk]
  simp only [ofInt, compare?, hsizes, hsigned]
  by_cases hm : m < 0 <;> by_cases hn : n < 0 <;>
    simp only [hm, hn, decide_true, decide_false, compare, compareOfLessAndEq, Option.some.injEq] <;>
    grind

/-- Integers have equal exact values if they are equal. -/
theorem equal_ofInt_iff {n m : Int} : (ofInt n).equal (.ofInt m) = true ↔ n = m := by
  rw [equal, compare?_ofInt, beq_iff_eq, Option.some.injEq, Int.compare_eq_eq]

/-- Equality goes over from one value to the next. -/
theorem equal_trans {x y z : Exact} (hxy : x.equal y = true) (hyz : y.equal z = true) :
    x.equal z = true := by
  cases x with
  | undefined => exact nomatch hxy
  | infinite a =>
    cases y with
    | undefined => exact nomatch hxy
    | infinite b =>
      have hab : a = b := by cases a <;> cases b <;> first | rfl | exact nomatch hxy
      rwa [hab]
    | finite => cases a <;> exact nomatch hxy
  | finite a c e =>
    cases y with
    | undefined => exact nomatch hxy
    | infinite b => cases b <;> exact nomatch hxy
    | finite b c' e' =>
      cases z with
      | undefined => exact nomatch hyz
      | infinite d => cases d <;> exact nomatch hyz
      | finite d c'' e'' =>
        let low := min e (min e' e'')
        have he : low ≤ e := min_le_left _ _
        have he' : low ≤ e' := (min_le_right _ _).trans (min_le_left _ _)
        have he'' : low ≤ e'' := (min_le_right _ _).trans (min_le_right _ _)
        obtain ⟨hsign, hsize⟩ := (equal_finite_iff he he').mp hxy
        obtain ⟨hsign', hsize'⟩ := (equal_finite_iff he' he'').mp hyz
        exact (equal_finite_iff he he'').mpr ⟨hsign.trans hsign', hsize.trans hsize'⟩

end Exact

end Quarry.Number
