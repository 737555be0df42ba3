import Quarry.Number.Read
import Quarry.Proofs.Number.Nearest
import Quarry.Proofs.Text.Trim

/-!
# Integers read as floating-point numbers

The text of an integer has nothing but its digits and a minus in front of them, so that it is read
as the floating-point number nearest to the integer, however long it is (`readReal?_toString`).
-/

set_option autoImplicit false

namespace Quarry.Number

open Text (asciiNat isAsciiDigit)

/-! ## Characters of integers -/

/-- The digits of ASCII have their numbers in a row. -/
theorem isAsciiDigit_iff {c : Char} : isAsciiDigit c = true ↔ 48 ≤ c.toNat ∧ c.toNat ≤ 57 := by
  simp only [isAsciiDigit, Bool.and_eq_true, decide_eq_true_eq]
  exact Iff.rfl

/-- Whether a character may stand in the text of an integer. -/
def StandsInInteger (c : Char) : Prop := c = '-' ∨ isAsciiDigit c = true

/-- What stands in an integer is a digit or a minus. -/
theorem StandsInInteger.bounds {c : Char} (h : StandsInInteger c) : 45 ≤ c.toNat ∧ c.toNat ≤ 57 := by
  obtain rfl | hdigit := h
  · decide
  · obtain ⟨hlow, hhigh⟩ := isAsciiDigit_iff.mp hdigit
    omega

/-- What stands in an integer is no other form of a digit. -/
theorem StandsInInteger.foldNumeral {c : Char} (h : StandsInInteger c) : foldNumeral c = c := by
  have hbounds := h.bounds
  rw [Number.foldNumeral, if_pos (by omega)]

/-- What stands in an integer is not blank. -/
theorem StandsInInteger.not_blank {c : Char} (h : StandsInInteger c) : isNumeralBlank c = false := by
  have hbounds := h.bounds
  have hspace : c ≠ ' ' := by
    rintro rfl
    exact absurd hbounds.1 (by decide)
  have hcontrol : ¬c ≤ '\x0d' := by
    intro hle
    have hnat : c.toNat ≤ 13 := hle
    omega
  simp [isNumeralBlank, hspace, hcontrol]

/-- What stands in an integer is no underscore. -/
theorem StandsInInteger.ne_underscore {c : Char} (h : StandsInInteger c) : c ≠ '_' := by
  rintro rfl
  exact absurd h.bounds.2 (by decide)

variable {cs : List Char}

/-- Nothing in the text of an integer is written in another way or dropped. -/
theorem numeral_of_integer (h : ∀ c ∈ cs, StandsInInteger c) : numeral cs = cs := by
  have hfold : cs.map foldNumeral = cs.map id := List.map_congr_left fun c hc => (h c hc).foldNumeral
  have hkept (xs : List Char) (hxs : ∀ c ∈ xs, StandsInInteger c) :
      xs.dropWhile isNumeralBlank = xs := by
    rw [List.dropWhile_eq_self_iff]
    intro hlength
    simp [(hxs _ (List.getElem_mem hlength)).not_blank]
  have hreverse : ∀ c ∈ cs.reverse, StandsInInteger c := fun c hc => h c (List.mem_reverse.mp hc)
  rw [numeral, hfold, List.map_id, Text.trimBy, hkept cs h, hkept cs.reverse hreverse,
    List.reverse_reverse]

/-- The digits of an integer are joined as they are. -/
theorem joinDigits_of_integer (h : ∀ c ∈ cs, StandsInInteger c) (previous : Bool) :
    joinDigits previous cs = some cs := by
  induction cs generalizing previous with
  | nil => simp [joinDigits]
  | cons c cs ih =>
    obtain ⟨hc, hcs⟩ := List.forall_mem_cons.mp h
    rw [joinDigits, ih hcs]
    · rfl
    · exact hc.ne_underscore

/-! ## Digits -/

/-- A word with anything but digits in it is not what digits are. -/
theorem digits_ne_word (word : String) (hword : ∃ c ∈ word.toList, isAsciiDigit c = false)
    (h : ∀ c ∈ cs, isAsciiDigit c = true) : String.ofList (cs.map Char.toLower) ≠ word := by
  rintro rfl
  obtain ⟨c, hc, hother⟩ := hword
  rw [String.toList_ofList] at hc
  obtain ⟨d, hd, rfl⟩ := List.mem_map.mp hc
  have hlower : d.toLower = d := by
    have hbounds := isAsciiDigit_iff.mp (h d hd)
    have hletter : ¬('A'.val ≤ d.val ∧ d.val ≤ 'Z'.val) := fun hupper =>
      absurd (show 65 ≤ d.toNat from hupper.1) (by omega)
    exact dif_neg hletter
  rw [hlower, h d hd] at hother
  exact absurd hother (by decide)

/-- Digits are read as a whole number. -/
theorem readFinite?_digits (negative : Bool) (hne : cs ≠ []) (h : ∀ c ∈ cs, isAsciiDigit c = true) :
    Decimal.readFinite? negative cs = some (.finite negative (asciiNat cs) 0) := by
  have htake : cs.takeWhile isAsciiDigit = cs := List.takeWhile_eq_self_iff.mpr h
  have hdrop : cs.dropWhile isAsciiDigit = [] := List.dropWhile_eq_nil_iff.mpr h
  simp [Decimal.readFinite?, htake, hdrop, hne]

/-- Digits have no sign. -/
theorem splitSign_digits (hne : cs ≠ []) (h : ∀ c ∈ cs, isAsciiDigit c = true) :
    Decimal.splitSign cs = (false, cs) := by
  cases cs with
  | nil => exact absurd rfl hne
  | cons c cs =>
    have hbounds := isAsciiDigit_iff.mp (h c (by simp))
    unfold Decimal.splitSign
    split
    · rename_i hminus
      obtain ⟨rfl, -⟩ := List.cons.inj hminus
      exact absurd hbounds.1 (by decide)
    · rename_i hplus
      obtain ⟨rfl, -⟩ := List.cons.inj hplus
      exact absurd hbounds.1 (by decide)
    · rfl

/-- Digits with or without a minus are read as the number nearest to what they say. -/
theorem readRealChars?_signed (negative : Bool) (hne : cs ≠ [])
    (h : ∀ c ∈ cs, isAsciiDigit c = true) :
    readRealChars? (if negative then '-' :: cs else cs) =
      some (Binary64.ofScientific negative (asciiNat cs) 0) := by
  have hjoin : joinDigits false (if negative then '-' :: cs else cs) =
      some (if negative then '-' :: cs else cs) := by
    refine joinDigits_of_integer (fun c hc => ?_) false
    cases negative with
    | true => exact (List.mem_cons.mp hc).imp_right (h c)
    | false => exact .inr (h c hc)
  have hsplit : Decimal.splitSign (if negative then '-' :: cs else cs) = (negative, cs) := by
    cases negative with
    | true => rfl
    | false => exact splitSign_digits hne h
  have hinf := digits_ne_word "inf" ⟨'i', by decide, by decide⟩ h
  have hinfinity := digits_ne_word "infinity" ⟨'i', by decide, by decide⟩ h
  have hnan := digits_ne_word "nan" ⟨'n', by decide, by decide⟩ h
  simp only [readRealChars?, hjoin, hsplit, Option.bind_eq_bind, Option.bind_some, Bool.or_eq_true,
    beq_iff_eq, hinf, hinfinity, hnan, or_self, if_false, readFinite?_digits negative hne h,
    Option.map_some, Decimal.toBinary64]

/-! ## Integers -/

/-- An integer is written in digits, after a minus if it is negative. -/
theorem toList_toString (n : Int) : (toString n).toList =
    if n < 0 then '-' :: Nat.toDigits 10 n.natAbs else Nat.toDigits 10 n.natAbs := by
  cases n with
  | ofNat m =>
    have htext : toString (Int.ofNat m) = toString m := rfl
    have hsign : ¬Int.ofNat m < 0 := Int.not_lt.mpr (Int.natCast_nonneg m)
    rw [htext, if_neg hsign]
    simp
  | negSucc m =>
    have htext : toString (Int.negSucc m) = "-" ++ toString (m + 1) := rfl
    rw [htext, if_pos (Int.negSucc_lt_zero m)]
    simp

/-- The text of an integer has digits and a sign. -/
theorem standsInInteger_of_mem_toString {n : Int} {c : Char} (hc : c ∈ (toString n).toList) :
    StandsInInteger c := by
  have hdigit (hc : c ∈ Nat.toDigits 10 n.natAbs) : isAsciiDigit c = true := isAsciiDigit_of_mem_toDigits hc
  rw [toList_toString] at hc
  split_ifs at hc
  · exact (List.mem_cons.mp hc).imp_right hdigit
  · exact .inr (hdigit hc)

/-- The text of an integer is read as the number nearest to it. -/
theorem readReal?_toString (n : Int) : readReal? (toString n) = some (Binary64.ofInt n) := by
  have hdigits : ∀ c ∈ Nat.toDigits 10 n.natAbs, isAsciiDigit c = true :=
    fun c hc => isAsciiDigit_of_mem_toDigits hc
  have hread := readRealChars?_signed (decide (n < 0)) Nat.toDigits_ne_nil hdigits
  simp only [decide_eq_true_eq] at hread
  rw [readReal?, numeral_of_integer fun _ => standsInInteger_of_mem_toString, toList_toString,
    hread, asciiNat_toDigits, Binary64.ofScientific_whole]
  rfl

end Quarry.Number
