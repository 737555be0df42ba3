import Quarry.Json.Printer
import Quarry.Proofs.Json.Tokens

/-!
# Texts and integers written

What is written for a text is this text in quotes, since each of its characters is written as
itself, behind a backslash or by its number. What is written for an integer is a number of the
grammar unless it has too many digits.
-/

set_option autoImplicit false

namespace Quarry.Json

/-! ## Texts -/

/-- What a part of a written text stands for: a glyph as it is, or a character by its number. -/
inductive Stands : Glyph → TextPart → Prop
  | itself (g : Glyph) : Stands g (.glyph g)
  | number {c : Char} (hcontrol : c.toNat < 0x20) : Stands (.char c) (.unit c.toNat)

/-- A control character is written with four digits. -/
theorem hexUnit?_hexDigits {n : Nat} (hn : n < 0x20) : ∃ a b c d,
    Text.hexDigits 4 n = [a, b, c, d] ∧ hexUnit? (.char a) (.char b) (.char c) (.char d) = some n := by
  have hall : ∀ n < 0x20, (Text.hexDigits 4 n).length = 4 ∧
      (glyphs (Text.hexDigits 4 n))[0]?.bind (fun a => (glyphs (Text.hexDigits 4 n))[1]?.bind
        fun b => (glyphs (Text.hexDigits 4 n))[2]?.bind fun c =>
          (glyphs (Text.hexDigits 4 n))[3]?.bind fun d => hexUnit? a b c d) = some n := by decide
  obtain ⟨hlength, hvalue⟩ := hall n hn
  match hdigits : Text.hexDigits 4 n with
  | [a, b, c, d] => exact ⟨a, b, c, d, rfl, by simpa [hdigits] using hvalue⟩
  | [] | [_] | [_, _] | [_, _, _] | _ :: _ :: _ :: _ :: _ :: _ => simp [hdigits] at hlength

/-- A glyph is written as one part. -/
theorem exists_partText (g : Glyph) : ∃ p, Stands g p ∧ PartText g.escaped p := by
  cases g with
  | half n => exact ⟨_, .itself _, .glyph nofun⟩
  | char c =>
    rw [Glyph.escaped]
    unfold escape
    split_ifs with hquote hslash hn hr ht hb hf hcontrol
    · rw [beq_iff_eq.mp hquote]
      exact ⟨_, .itself _, .escape rfl⟩
    · rw [beq_iff_eq.mp hslash]
      exact ⟨_, .itself _, .escape rfl⟩
    · rw [beq_iff_eq.mp hn]
      exact ⟨_, .itself _, .escape rfl⟩
    · rw [beq_iff_eq.mp hr]
      exact ⟨_, .itself _, .escape rfl⟩
    · rw [beq_iff_eq.mp ht]
      exact ⟨_, .itself _, .escape rfl⟩
    · rw [beq_iff_eq.mp hb]
      exact ⟨_, .itself _, .escape rfl⟩
    · rw [beq_iff_eq.mp hf]
      exact ⟨_, .itself _, .escape rfl⟩
    · obtain ⟨a, b, d, e, hdigits, hvalue⟩ := hexUnit?_hexDigits hcontrol
      rw [hdigits]
      exact ⟨_, .number hcontrol, .unit hvalue⟩
    · have hplain : 0x20 ≤ c.toNat ∧ c ≠ '"' ∧ c ≠ '\\' := by
        simpa using And.intro (Nat.not_lt.mp hcontrol) (And.intro hquote hslash)
      refine ⟨_, .itself _, .glyph fun d hd => ?_⟩
      rwa [← Glyph.char.inj hd]

/-- Glyphs are escaped as parts of a text that stand for them. -/
theorem exists_partsText_flatMap (gs : List Glyph) :
    ∃ ps, List.Forall₂ Stands gs ps ∧ PartsText (gs.flatMap Glyph.escaped) ps := by
  induction gs with
  | nil => exact ⟨[], .nil, .nil⟩
  | cons g gs ih =>
    obtain ⟨p, hp, hpart⟩ := exists_partText g
    obtain ⟨ps, hps, hparts⟩ := ih
    exact ⟨p :: ps, .cons hp hps, .cons hpart hparts⟩

/-- Parts that stand for glyphs are joined to these. -/
theorem joinUnits_of_stands {gs : List Glyph} {ps : List TextPart} (h : List.Forall₂ Stands gs ps) :
    joinUnits ps = gs := by
  -- a number that stands for a control character is no half of a pair
  have hunit {c : Char} (hc : c.toNat < 0x20) (ps : List TextPart) :
      joinUnits (.unit c.toNat :: ps) = .char c :: joinUnits ps := by
    have hhigh : isHighHalf c.toNat = false := by
      simp only [isHighHalf, Bool.and_eq_false_iff, decide_eq_false_iff_not]
      omega
    have hlow : isLowHalf c.toNat = false := by
      simp only [isLowHalf, Bool.and_eq_false_iff, decide_eq_false_iff_not]
      omega
    have hglyph : unitGlyph c.toNat = .char c := by simp [unitGlyph, hhigh, hlow]
    cases ps with
    | nil => simp [joinUnits, hglyph]
    | cons p ps => cases p <;> simp [joinUnits, hglyph, hhigh]
  induction h with
  | nil => simp [joinUnits]
  | cons hfirst _ ih =>
    cases hfirst with
    | itself => simp [joinUnits, ih]
    | number hcontrol => rw [hunit hcontrol, ih]

/-- What is written for a text is this text in quotes. -/
theorem quotedText_quote (gs : List Glyph) : QuotedText (quote gs) gs := by
  obtain ⟨ps, hps, hparts⟩ := exists_partsText_flatMap gs
  have hquoted := QuotedText.quotes hparts
  rwa [joinUnits_of_stands hps] at hquoted

/-! ## Integers -/

/-- A natural number is written as a whole one. -/
theorem isWhole_toDigits (n : Nat) : IsWhole (Nat.toDigits 10 n) where
  digits _ hc := Number.isAsciiDigit_of_mem_toDigits hc
  leading := by
    by_cases hn : n = 0
    · rw [hn]
      exact .inl rfl
    · refine .inr ⟨Nat.toDigits_ne_nil, fun hhead => ?_⟩
      obtain ⟨tail, htail⟩ := List.head?_eq_some_iff.mp hhead
      exact Number.toDigits_ne_zero_cons hn tail htail

/-- What is written for an integer that has not too many digits is a number. -/
theorem scalarText_intChars {n : Int} (hshort : Number.digitCount n.natAbs ≤ Number.maxDigits) :
    ScalarText (glyphs (intChars n)) (.int n) := by
  have hnumber (negative : Bool) : NumberText negative (glyphs (Nat.toDigits 10 n.natAbs))
      (.int (Number.Exact.signedNum negative n.natAbs)) := by
    have hint : NumberText negative (glyphs (Nat.toDigits 10 n.natAbs)) (.int (Number.Exact.signedNum negative
        (Text.asciiNat (Nat.toDigits 10 n.natAbs)))) := .int (isWhole_toDigits _) hshort
    rwa [Number.asciiNat_toDigits] at hint
  unfold intChars
  split_ifs with hsign
  · have hvalue : Number.Exact.signedNum true n.natAbs = n := by
      simp only [Number.Exact.signedNum, if_true]
      omega
    have hnegative := hnumber true
    rw [hvalue] at hnegative
    exact .negative hnegative
  · have hvalue : Number.Exact.signedNum false n.natAbs = n := by
      simp only [Number.Exact.signedNum, Bool.false_eq_true, if_false]
      omega
    have hpositive := hnumber false
    rw [hvalue] at hpositive
    exact .positive hpositive

end Quarry.Json
