import Mathlib.Tactic.SplitIfs
import Quarry.Text.Name

/-!
# Column names of column names

A column name is its own column name. Lower-casing leaves nothing that it would change again: no
lower-case form is found in the tables of upper-case characters. That is seen from the runs of the
tables: where the forms of one run reach into another run, both skip every second character, and
they skip different ones.
-/

set_option autoImplicit false

namespace Quarry.Text

/-! ## Characters -/

/-- Whether no form that the first run gives is found in the second one. -/
def CaseRun.isApart (r other : CaseRun) : Bool :=
  Nat.blt (r.target + (r.last - r.first)) other.first || Nat.blt other.last r.target ||
    (other.step == 2 && (r.step == 2 || r.first == r.last) && (r.target + other.first) % 2 == 1)

/-- A run has the letters in its range, step by step. -/
theorem CaseRun.find?_eq_some_iff {r : CaseRun} {n form : Nat} :
    r.find? n = some form ↔ r.first ≤ n ∧ n ≤ r.last ∧ (n - r.first) % r.step = 0 ∧
      r.target + (n - r.first) = form := by
  simp [find?, and_assoc]

/-- What a run makes is not in a run apart from it. -/
theorem CaseRun.find?_eq_none_of_isApart {r other : CaseRun} {n form : Nat}
    (h : r.isApart other = true) (hform : r.find? n = some form) : other.find? form = none := by
  obtain ⟨hfirst, hlast, hstep, rfl⟩ := find?_eq_some_iff.mp hform
  simp only [isApart, Bool.or_eq_true, Bool.and_eq_true, Nat.blt_eq, beq_iff_eq] at h
  refine Option.eq_none_iff_forall_ne_some.mpr fun form' hform' => ?_
  obtain ⟨hfirst', hlast', hstep', -⟩ := find?_eq_some_iff.mp hform'
  obtain (hbelow | habove) | ⟨⟨hother, hskips⟩, hodd⟩ := h
  · omega
  · omega
  · rw [hother] at hstep'
    obtain htwo | hsingle := hskips
    · rw [htwo] at hstep
      omega
    · omega

/-- No run makes what another one takes. -/
theorem lowerRuns_isApart :
    (lowerRuns.all fun r => lowerRuns.all fun other => r.isApart other) = true := by
  decide +kernel

/-- No lower-case form is the character that has two of them. -/
theorem lowerRuns_isApart_expanded :
    (lowerRuns.all fun r => r.isApart ⟨0x130, 0x130, 1, 0x69⟩) = true := by
  decide

/-- What a run makes is in no run. -/
theorem find?_lowerRuns {r : CaseRun} {n form : Nat} (hr : r ∈ lowerRuns)
    (h : r.find? n = some form) :
    (∀ other ∈ lowerRuns, other.find? form = none) ∧ form ≠ 0x130 := by
  constructor
  · intro other hother
    have hall := List.all_eq_true.mp lowerRuns_isApart r hr
    exact CaseRun.find?_eq_none_of_isApart (List.all_eq_true.mp hall other hother) h
  · rintro rfl
    have hnone :=
      CaseRun.find?_eq_none_of_isApart (List.all_eq_true.mp lowerRuns_isApart_expanded r hr) h
    exact nomatch hnone

/-- A character is found again by its number. -/
theorem toNat_ofNat {n : Nat} (h : n.isValidChar) : (Char.ofNat n).toNat = n := by
  rw [Char.ofNat, dif_pos h]
  rfl

/-- A character of ASCII that is no capital letter is its own small form. -/
theorem lowerChar_of_ascii {c : Char} (hascii : c.toNat < 0x80) (hletter : ¬('A' ≤ c ∧ c ≤ 'Z')) :
    lowerChar c = [c] := by
  simp [lowerChar, hletter, hascii]

/-- A character in none of the tables has no other lower-case form than itself. -/
theorem lowerChar_eq_self {c : Char} (hruns : ∀ r ∈ lowerRuns, r.find? c.toNat = none)
    (hexpanded : c.toNat ≠ 0x130) : lowerChar c = [c] := by
  have hletter : ¬('A' ≤ c ∧ c ≤ 'Z') := by
    rintro ⟨hfirst, hlast⟩
    have hnone := hruns ⟨0x41, 0x5A, 1, 0x61⟩ (by unfold lowerRuns; exact List.mem_cons_self)
    rw [CaseRun.find?_eq_some_iff.mpr ⟨hfirst, hlast, Nat.mod_one _, rfl⟩] at hnone
    exact nomatch hnone
  have hfound : lowerRuns.findSome? (fun r => r.find? c.toNat) = none :=
    List.findSome?_eq_none_iff.mpr hruns
  simp [lowerChar, hletter, caseMap, hfound, lowerExpansions, Ne.symm hexpanded]

/-- The capital letters have their numbers in a row. -/
theorem letter_bounds {c : Char} (h : ('A' ≤ c && c ≤ 'Z') = true) :
    0x41 ≤ c.toNat ∧ c.toNat ≤ 0x5A := by
  obtain ⟨hfirst, hlast⟩ := Bool.and_eq_true_iff.mp h
  exact ⟨of_decide_eq_true hfirst, of_decide_eq_true hlast⟩

/-- A lower-case form is its own lower-case form. -/
theorem lowerChar_of_mem {c d : Char} (h : d ∈ lowerChar c) : lowerChar d = [d] := by
  unfold lowerChar at h
  split_ifs at h with hletter hascii
  · obtain ⟨hfirst, hlast⟩ := letter_bounds hletter
    obtain rfl := List.mem_singleton.mp h
    have hvalue : (Char.ofNat (c.toNat + 32)).toNat = c.toNat + 32 :=
      toNat_ofNat (.inl (by omega))
    refine lowerChar_of_ascii (by omega) ?_
    rintro ⟨-, hlast'⟩
    have hbound : (Char.ofNat (c.toNat + 32)).toNat ≤ 0x5A := hlast'
    omega
  · obtain rfl := List.mem_singleton.mp h
    refine lowerChar_of_ascii hascii fun ⟨hfirst, hlast⟩ => hletter ?_
    simp [hfirst, hlast]
  · unfold caseMap at h
    split at h
    · rename_i form hform
      obtain rfl := List.mem_singleton.mp h
      obtain ⟨r, hr, hfind⟩ := List.exists_of_findSome?_eq_some hform
      obtain ⟨hruns, hexpanded⟩ := find?_lowerRuns hr hfind
      by_cases hvalid : form.isValidChar
      · have hvalue : (Char.ofNat form).toNat = form := toNat_ofNat hvalid
        exact lowerChar_eq_self (by rwa [hvalue]) (by rwa [hvalue])
      · have hzero : Char.ofNat form = '\x00' := by rw [Char.ofNat, dif_neg hvalid]; rfl
        rw [hzero]
        rfl
    · rename_i hnone
      split at h
      · rename_i e he
        have hmem := List.mem_of_find?_eq_some he
        obtain rfl : e = (0x130, [0x69, 0x307]) := by simpa [lowerExpansions] using hmem
        obtain rfl | rfl : d = Char.ofNat 0x69 ∨ d = Char.ofNat 0x307 := by simpa using h
        · decide
        · decide
      · rename_i hexpansion
        obtain rfl := List.mem_singleton.mp h
        refine lowerChar_eq_self (List.findSome?_eq_none_iff.mp hnone) fun hsame => ?_
        simp [lowerExpansions, hsame] at hexpansion

/-- Whether a text only has characters that are their own lower-case forms. -/
def IsLower (cs : List Char) : Prop := ∀ c ∈ cs, lowerChar c = [c]

/-! ## Texts -/

/-- What was lowered is in small letters. -/
theorem isLower_lowerFrom (before cs : List Char) : IsLower (lowerFrom before cs) := by
  induction cs generalizing before with
  | nil => exact nofun
  | cons c cs ih =>
    intro d hd
    obtain hd | hd := List.mem_append.mp hd
    · split_ifs at hd
      · obtain rfl := List.mem_singleton.mp hd
        decide
      · obtain rfl := List.mem_singleton.mp hd
        decide
      · exact lowerChar_of_mem hd
    · exact ih _ d hd

/-- What is in small letters stays when it is lowered. -/
theorem IsLower.lowerFrom_eq {cs : List Char} (h : IsLower cs) (before : List Char) :
    lowerFrom before cs = cs := by
  induction cs generalizing before with
  | nil => rfl
  | cons c cs ih =>
    obtain ⟨hc, hcs⟩ := List.forall_mem_cons.mp h
    have hsigma : c ≠ 'Σ' := by
      rintro rfl
      exact absurd hc (by decide)
    simp only [lowerFrom, if_neg hsigma, hc, ih hcs, List.singleton_append]

/-- What is its own small form does not start a word. -/
theorem startsWord_eq_false {c : Char} (h : lowerChar c = [c]) : Name.startsWord c = false := by
  refine Bool.eq_false_iff.mpr fun hletter => ?_
  rw [Name.startsWord] at hletter
  obtain ⟨hfirst, hlast⟩ := letter_bounds hletter
  rw [lowerChar, if_pos hletter] at h
  have hvalue : (Char.ofNat (c.toNat + 32)).toNat = c.toNat + 32 := toNat_ofNat (.inl (by omega))
  rw [List.singleton_inj.mp h] at hvalue
  omega

/-- A text without upper-case letters has no boundaries to be marked. -/
theorem IsLower.markBoundaries_eq {cs : List Char} (h : IsLower cs) : Name.markBoundaries cs = cs := by
  induction cs with
  | nil => rfl
  | cons a cs ih =>
    obtain ⟨-, hcs⟩ := List.forall_mem_cons.mp h
    cases cs with
    | nil => rfl
    | cons b cs =>
      have hb : Name.startsWord b = false := startsWord_eq_false (hcs b List.mem_cons_self)
      rw [Name.markBoundaries, ih hcs, hb, Bool.and_false, if_neg Bool.false_ne_true]

/-- The column name of a column name is the same. -/
theorem Name.toSnake_toSnake (name : String) : toSnake (toSnake name) = toSnake name := by
  have hlower : IsLower (snake name.toList) := isLower_lowerFrom [] _
  rw [toSnake, toSnake, String.toList_ofList]
  rw [snake, hlower.markBoundaries_eq, lower, hlower.lowerFrom_eq]

end Quarry.Text
