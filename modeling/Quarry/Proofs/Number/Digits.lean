import Mathlib.Data.Nat.Digits.Defs
import Quarry.Number.Shortest
import Quarry.Text.Digit

/-!
# Decimal digits

Written digits read back as the number they were written for. A number is written without zeros in
front of it unless a width asks for some, so that no other digits for the same number are fewer.
-/

set_option autoImplicit false

namespace Quarry

namespace Text

/-- The number of digits is the one that is built up from them. -/
theorem asciiNat_eq (cs : List Char) : asciiNat cs = Nat.ofDigitChars 10 cs 0 := by
  rw [Nat.ofDigitChars_eq_foldl, asciiNat, ofDigits, List.foldl_map]
  rfl

/-- The first digit counts for as many places as follow it. -/
theorem asciiNat_cons (c : Char) (cs : List Char) :
    asciiNat (c :: cs) = 10 ^ cs.length * asciiDigitValue c + asciiNat cs := by
  rw [asciiNat_eq, asciiNat_eq, Nat.ofDigitChars_cons, Nat.ofDigitChars_eq_ofDigitChars_zero,
    Nat.mul_zero, Nat.zero_add]
  rfl

/-- A digit is at most 9. -/
theorem asciiDigitValue_le {c : Char} (h : isAsciiDigit c = true) : asciiDigitValue c ≤ 9 := by
  simp only [isAsciiDigit, Bool.and_eq_true, decide_eq_true_eq] at h
  have hle : c.toNat ≤ '9'.toNat := h.2
  have hnine : '9'.toNat = 57 := rfl
  have hzero : '0'.toNat = 48 := rfl
  unfold asciiDigitValue
  omega

/-- A number is less than the power of ten with its digits. -/
theorem asciiNat_lt {cs : List Char} (h : ∀ c ∈ cs, isAsciiDigit c = true) :
    asciiNat cs < 10 ^ cs.length := by
  induction cs with
  | nil => decide
  | cons c cs ih =>
    obtain ⟨hc, hcs⟩ := List.forall_mem_cons.mp h
    have hrest := ih hcs
    have hfirst := Nat.mul_le_mul_left (10 ^ cs.length) (asciiDigitValue_le hc)
    rw [asciiNat_cons, List.length_cons, Nat.pow_succ]
    omega

end Text

namespace Number

open Text (asciiNat isAsciiDigit)

/-- A number is read back from its digits. -/
theorem asciiNat_toDigits (n : Nat) : asciiNat (Nat.toDigits 10 n) = n := by
  rw [Text.asciiNat_eq, Nat.ofDigitChars_ten_toDigits]

/-- A number is written in digits of ASCII. -/
theorem isAsciiDigit_of_mem_toDigits {n : Nat} {c : Char} (h : c ∈ Nat.toDigits 10 n) :
    isAsciiDigit c = true := by
  have hdigit := Nat.isDigit_of_mem_toDigits (by omega) (by omega) h
  simpa [isAsciiDigit, Char.isDigit, Char.le_def] using hdigit

/-- No other digits for a number are fewer than those it is written with. -/
theorem digitCount_asciiNat_le {ds : List Char} (hne : ds ≠ [])
    (hdigits : ∀ c ∈ ds, isAsciiDigit c = true) : digitCount (asciiNat ds) ≤ ds.length :=
  (Nat.length_toDigits_le_iff (by omega) (List.length_pos_iff.mpr hne)).mpr (Text.asciiNat_lt hdigits)

/-- A number other than zero does not begin with zero. -/
theorem toDigits_ne_zero_cons {n : Nat} (hn : n ≠ 0) (ds : List Char) :
    Nat.toDigits 10 n ≠ '0' :: ds := by
  intro hcons
  have hvalue : asciiNat ds = n := by
    have hsame := asciiNat_toDigits n
    rw [hcons, Text.asciiNat_cons] at hsame
    simpa [Text.asciiDigitValue] using hsame
  have hdigits : ∀ c ∈ ds, isAsciiDigit c = true := fun c hc =>
    isAsciiDigit_of_mem_toDigits (n := n) (by rw [hcons]; exact List.mem_cons_of_mem _ hc)
  have hne : ds ≠ [] := by
    rintro rfl
    exact hn hvalue.symm
  have hfewer := digitCount_asciiNat_le hne hdigits
  rw [hvalue, digitCount, hcons, List.length_cons] at hfewer
  omega

/-! ## Digits up to a width -/

/-- A padded number is written in digits of ASCII. -/
theorem isAsciiDigit_of_mem_padded {width n : Nat} {c : Char} (h : c ∈ padded width n) :
    isAsciiDigit c = true := by
  obtain hzero | hdigit := List.mem_append.mp h
  · rw [List.eq_of_mem_replicate hzero]
    rfl
  · exact isAsciiDigit_of_mem_toDigits hdigit

/-- A padded number has its width, unless it needs more. -/
theorem length_padded {width n : Nat} (hwidth : 0 < width) (hn : n < 10 ^ width) :
    (padded width n).length = width := by
  have hle := (Nat.length_toDigits_le_iff (by omega) hwidth).mpr hn
  simp only [padded, zeros, List.length_append, List.length_replicate]
  omega

/-- A padded number is read back. -/
theorem asciiNat_padded (width n : Nat) : asciiNat (padded width n) = n := by
  have hzeros (k : Nat) (ds : List Char) : asciiNat (zeros k ++ ds) = asciiNat ds := by
    induction k with
    | zero => rfl
    | succ k ih =>
      have hzero : Text.asciiDigitValue '0' = 0 := rfl
      rw [zeros, List.replicate_succ, List.cons_append, Text.asciiNat_cons, hzero, Nat.mul_zero,
        Nat.zero_add]
      exact ih
  rw [padded, hzeros, asciiNat_toDigits]

end Number

end Quarry
