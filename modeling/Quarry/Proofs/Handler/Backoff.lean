import Quarry.Proofs.Handler.Acquiring
import Quarry.Proofs.Number.Nearest

/-!
# The pause before a new try

The pause doubles with each try. For a handler whose first pause is a floating-point number the
doubled one can be computed until the factor is beyond all such numbers, which is so from `2 ^ 1024`
on, and not any more after that (`pauseFails_iff`).

The error that is raised then is none of those that a handler takes for the lack of a connection.
-/

set_option autoImplicit false

namespace Quarry

open Number (Binary64)

/-- The floating-point number nearest to an integer, if there is a finite one. -/
theorem Value.realOfInt_eq (n : Int) : realOfInt n =
    if n.natAbs + 2 ^ 970 < 2 ^ 1024 then .ok (.ofInt n) else misfit (.range .largeInteger) := by
  have hfinite : (Binary64.ofInt n).isFinite = true ↔ n.natAbs + 2 ^ 970 < 2 ^ 1024 :=
    Binary64.isFinite_ofFraction_iff _ n.natAbs
  simp only [realOfInt, hfinite]

namespace Handler

variable {σ : Type}

/-- A misfit is no error of the pool. -/
theorem not_isPool_misfit {β : Type} {m : Misfit} {e : Error}
    (herror : (misfit m : Except Error β) = .error e) : e.isPool = false := by
  obtain rfl := Except.error.inj herror
  rfl

/-- That an integer is too large for a floating-point number is no error of the pool. -/
theorem not_isPool_realOfInt {n : Int} {e : Error} (herror : Value.realOfInt n = .error e) :
    e.isPool = false := by
  simp only [Value.realOfInt] at herror
  split at herror
  · exact absurd herror (by simp)
  · exact not_isPool_misfit herror

/-- That a number cannot be multiplied is no error of the pool. -/
theorem not_isPool_timesNat {v : Value} {n : Nat} {e : Error} (herror : v.timesNat n = .error e) :
    e.isPool = false := by
  unfold Value.timesNat at herror
  split at herror
  case h_3 x =>
    cases hreal : Value.realOfInt n with
    | ok y => simp [hreal, Except.map] at herror
    | error e' =>
      obtain rfl : e' = e := by simpa [hreal, Except.map] using herror
      exact not_isPool_realOfInt hreal
  case h_4 d =>
    split at herror
    · exact not_isPool_misfit herror
    · unfold Value.calculated at herror
      split at herror
      · exact absurd herror (by simp)
      · exact not_isPool_misfit herror
  all_goals first | exact absurd herror (by simp) | exact not_isPool_misfit herror

/-- That a number cannot be shown is no error of the pool. -/
theorem not_isPool_thousandths {v : Value} {e : Error} (herror : v.thousandths = .error e) :
    e.isPool = false := by
  have hreal : v.toReal = .error e := by
    cases hreal : v.toReal with
    | ok x => simp [Value.thousandths, hreal, Except.map] at herror
    | error e' => simpa [Value.thousandths, hreal, Except.map] using herror
  unfold Value.toReal at hreal
  split at hreal
  · exact not_isPool_realOfInt hreal
  · exact not_isPool_realOfInt hreal
  · exact absurd hreal (by simp)
  · unfold Value.realOfDecimal at hreal
    split at hreal
    · obtain rfl := Except.error.inj hreal
      rfl
    · exact absurd hreal (by simp)
  · exact not_isPool_misfit hreal

/-- That there is no pause is not taken for the lack of a connection. -/
theorem PauseFails.not_isPool {h : Handler σ} {s : σ} {k : Nat} {e : Error}
    (hpause : h.PauseFails s k e) : e.isPool = false := by
  obtain herror | ⟨delay, -, -, -, herror⟩ := hpause
  · exact not_isPool_timesNat herror
  · exact not_isPool_thousandths herror

/-- The powers of two for which there is a finite floating-point number. -/
theorem two_pow_lt_limit_iff (k : Nat) : 2 ^ k + 2 ^ 970 < 2 ^ 1024 ↔ k < 1024 := by
  have htop : 2 ^ 1024 = 2 * 2 ^ 1023 := by rw [Nat.mul_comm, ← Nat.pow_succ]
  have hless : 2 ^ 970 < 2 ^ 1023 := by apply Nat.pow_lt_pow_right <;> decide
  constructor
  · intro hsum
    by_contra hk
    have hpower : 2 ^ 1024 ≤ 2 ^ k := by
      apply Nat.pow_le_pow_right
      · decide
      · exact Nat.not_lt.mp hk
    omega
  · intro hk
    have hpower : 2 ^ k ≤ 2 ^ 1023 := by
      apply Nat.pow_le_pow_right
      · decide
      · exact Nat.le_of_lt_succ hk
    omega

/-- A floating-point number can be doubled less than 1024 times, for then the factor is too
large. -/
theorem timesNat_two_pow (x : Binary64) (k : Nat) : (Value.real x).timesNat (Nat.pow 2 k) =
    if k < 1024 then .ok (.real (x.mul (.ofInt (Nat.pow 2 k : Nat))))
    else .error (.misfit (.range .largeInteger)) := by
  have hfits : ((Nat.pow 2 k : Nat) : Int).natAbs + 2 ^ 970 < 2 ^ 1024 ↔ k < 1024 :=
    two_pow_lt_limit_iff k
  simp only [Value.timesNat, Value.realOfInt_eq, hfits]
  split_ifs <;> rfl

/-- With a floating-point delay the pause fails from the 1025th retry on, and with the overflow
alone. -/
theorem pauseFails_iff {h : Handler σ} {x : Binary64} (hdelay : h.retryDelay = .real x) {s : σ} {k : Nat}
    {e : Error} : h.PauseFails s k e ↔ 1024 ≤ k ∧ e = .misfit (.range .largeInteger) := by
  have hshown : ∀ y : Binary64, (Value.real y).thousandths ≠ .error e := by
    intro y
    simp [Value.thousandths, Value.toReal, Except.map]
  unfold PauseFails
  rw [hdelay, timesNat_two_pow]
  by_cases hk : k < 1024
  · have hlow : ¬1024 ≤ k := by omega
    simp [hk, hlow, hshown]
  · have hhigh : 1024 ≤ k := by omega
    rw [if_neg hk]
    constructor
    · rintro (herror | ⟨delay, hdelay, -⟩)
      · exact ⟨hhigh, (Except.error.inj herror).symm⟩
      · exact absurd hdelay (by simp)
    · rintro ⟨-, rfl⟩
      exact .inl rfl

end Handler

end Quarry
