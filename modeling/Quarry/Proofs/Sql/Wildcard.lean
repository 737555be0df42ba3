import Mathlib.Data.List.Infix
import Quarry.Proofs.Outcome
import Quarry.Sql.Condition

/-!
# What LIKE patterns mean

A pattern is read part by part: a percent sign stands for any text, an underscore for any one
character, and every other character for itself. A backslash takes the meaning away from the
character behind it; at the end of the pattern there is none, and it stands for itself. Letters are
compared with their case left aside.

An operand is put into a pattern as it is. The pattern means what its name says if all characters of
the operand are read as themselves, and in no other case (`likeOperand_means_iff`): an operand that
is read in another way is matched by its `sample`, which is shorter, or differs from it at an
underscore.
-/

set_option autoImplicit false

namespace Quarry.Sql

/-! ## Case -/

/-- What is left of a character when its case is left aside. The characters that mean something in a
pattern have no case. -/
structure CaseFolding where
  fold : Char → Char
  fold_eq_iff : ∀ mark ∈ ['%', '_', '\\'], ∀ c, fold c = fold mark ↔ c = mark

namespace CaseFolding

/-- The capital letters are those from A to Z. -/
theorem isUpper_iff {c : Char} : c.isUpper = true ↔ 65 ≤ c.toNat ∧ c.toNat ≤ 90 := by
  show decide ('A'.val ≤ c.val ∧ c.val ≤ 'Z'.val) = true ↔ _
  rw [decide_eq_true_eq]
  exact Iff.rfl

/-- The small letter of a capital one comes 32 places behind it. -/
theorem toNat_toLower (c : Char) :
    c.toLower.toNat = if c.isUpper then c.toNat + 32 else c.toNat := by
  cases hupper : c.isUpper with
  | true =>
    have hbounds : 'A'.val ≤ c.val ∧ c.val ≤ 'Z'.val := isUpper_iff.mp hupper
    have hlower : c.toLower.val = c.val + 32 := congrArg Char.val (dif_pos hbounds)
    have hsmall : c.val.toNat ≤ 90 := hbounds.2
    rw [if_pos rfl]
    show c.toLower.val.toNat = c.val.toNat + 32
    rw [hlower, UInt32.toNat_add]
    exact Nat.mod_eq_of_lt (by show c.val.toNat + 32 < 2 ^ 32; omega)
  | false =>
    have hbounds : ¬('A'.val ≤ c.val ∧ c.val ≤ 'Z'.val) := fun h =>
      absurd (isUpper_iff.mpr h) (Bool.eq_false_iff.mp hupper)
    have hlower : c.toLower = c := dif_neg hbounds
    rw [hlower, if_neg Bool.false_ne_true]

/-- The case of ASCII letters does not count. -/
def ascii : CaseFolding where
  fold := Char.toLower
  fold_eq_iff := by
    have hplain : ∀ mark ∈ ['%', '_', '\\'], mark.isUpper = false ∧ mark.toNat < 97 := by
      refine List.forall_mem_cons.mpr ⟨by decide, List.forall_mem_cons.mpr ⟨by decide, ?_⟩⟩
      exact List.forall_mem_singleton.mpr (by decide)
    intro mark hmark c
    obtain ⟨hlower, hlow⟩ := hplain mark hmark
    rw [← Char.toNat_inj, ← Char.toNat_inj, toNat_toLower, toNat_toLower, hlower]
    cases hupper : c.isUpper with
    | false => simp
    | true =>
      have hbounds := isUpper_iff.mp hupper
      have hne : c.toNat ≠ mark.toNat := by
        intro heq
        rw [Char.toNat_inj.mp heq, hlower] at hupper
        exact nomatch hupper
      simp only [if_true, Bool.false_eq_true, if_false]
      omega

/-- A text with its case left aside. -/
def folded (f : CaseFolding) (cs : List Char) : List Char := cs.map f.fold

/-- Folding keeps the length. -/
@[simp] theorem length_folded (f : CaseFolding) (cs : List Char) :
    (f.folded cs).length = cs.length := List.length_map _

end CaseFolding

/-! ## Matching -/

/-- A part of a pattern. -/
inductive PatternPart where
  /-- Any text. -/
  | any
  /-- Any one character. -/
  | one
  | itself (c : Char)

namespace PatternPart

/-- The part that a character is when nothing takes away its meaning. -/
def ofChar (c : Char) : PatternPart := if c = '%' then .any else if c = '_' then .one else .itself c

/-- The parts of a pattern. -/
def read : List Char → List PatternPart
  | [] => []
  | [c] => [ofChar c]
  | c :: d :: rest => if c = '\\' then .itself d :: read rest else ofChar c :: read (d :: rest)

/-- Whether a text matches the parts of a pattern. -/
def areMatchedBy (f : CaseFolding) : List PatternPart → List Char → Bool
  | [], text => text.isEmpty
  | .any :: parts, text => text.tails.any (areMatchedBy f parts)
  | .one :: _, [] => false
  | .one :: parts, _ :: text => areMatchedBy f parts text
  | .itself _ :: _, [] => false
  | .itself c :: parts, d :: text => f.fold d == f.fold c && areMatchedBy f parts text

end PatternPart

/-- Whether a text matches a LIKE pattern. -/
def likeMatches (f : CaseFolding) (pattern text : String) : Bool :=
  PatternPart.areMatchedBy f (PatternPart.read pattern.toList) text.toList

namespace LikePattern

/-- The name of a pattern. -/
def label : LikePattern → String
  | .starts => "starts"
  | .ends => "ends"
  | .contains => "contains"
  | .exact => "exact"

/-- A pattern is found by its label. -/
theorem ofName?_label (p : LikePattern) : ofName? p.label = some p := by
  cases p <;> rfl

/-- What the name of a pattern says of a text and the operand. -/
def Says (p : LikePattern) (f : CaseFolding) (operand text : String) : Prop :=
  match p with
  | .starts => f.folded operand.toList <+: f.folded text.toList
  | .ends => f.folded operand.toList <:+ f.folded text.toList
  | .contains => f.folded operand.toList <:+: f.folded text.toList
  | .exact => f.folded text.toList = f.folded operand.toList

/-- Whether the match may begin in front of the operand. -/
def isOpenBefore : LikePattern → Bool
  | .ends => true
  | .contains => true
  | _ => false

/-- Whether the match may go on behind the operand. -/
def isOpenBehind : LikePattern → Bool
  | .starts => true
  | .contains => true
  | _ => false

/-- The operand has no wildcards, and no backslash but perhaps at the end of the pattern. -/
def ReadsAsItself (p : LikePattern) (operand : String) : Prop :=
  (∀ c ∈ operand.toList, c ≠ '%' ∧ c ≠ '_') ∧
    '\\' ∉ (if p.isOpenBehind then operand.toList else operand.toList.dropLast)

/-- Whether a pattern reads an operand as itself can be computed. -/
instance (p : LikePattern) (operand : String) : Decidable (p.ReadsAsItself operand) :=
  @instDecidableAnd _ _ (List.decidableBAll _ operand.toList) inferInstance

end LikePattern

namespace PatternPart

variable {f : CaseFolding} {parts : List PatternPart} {text : List Char}

/-- A part that stands for anything takes away any beginning. -/
theorem any_areMatchedBy_iff :
    areMatchedBy f (.any :: parts) text = true ↔
      ∃ before rest, text = before ++ rest ∧ areMatchedBy f parts rest = true := by
  rw [areMatchedBy, List.any_eq_true]
  constructor
  · rintro ⟨rest, hrest, hmatch⟩
    obtain ⟨before, hsplit⟩ := (List.mem_tails rest text).mp hrest
    exact ⟨before, rest, hsplit.symm, hmatch⟩
  · rintro ⟨before, rest, rfl, hmatch⟩
    exact ⟨rest, (List.mem_tails rest _).mpr (List.suffix_append before rest), hmatch⟩

/-- Characters that stand for themselves are matched by the text that they are. -/
theorem itself_areMatchedBy_iff {operand : List Char} :
    areMatchedBy f (operand.map .itself ++ parts) text = true ↔
      ∃ same rest, text = same ++ rest ∧ f.folded same = f.folded operand ∧
        areMatchedBy f parts rest = true := by
  induction operand generalizing text with
  | nil => simp [CaseFolding.folded]
  | cons c operand ih =>
    cases text with
    | nil => simp [areMatchedBy, CaseFolding.folded]
    | cons d text =>
      rw [List.map_cons, List.cons_append, areMatchedBy, Bool.and_eq_true, ih, beq_iff_eq]
      constructor
      · rintro ⟨hd, same, rest, rfl, hsame, hmatch⟩
        exact ⟨d :: same, rest, rfl, by simpa [CaseFolding.folded, hd] using hsame, hmatch⟩
      · rintro ⟨same, rest, hsplit, hsame, hmatch⟩
        cases same with
        | nil => simp [CaseFolding.folded] at hsame
        | cons e same =>
          obtain ⟨rfl, rfl⟩ := List.cons.inj hsplit
          obtain ⟨he, hrest⟩ := List.cons.inj hsame
          exact ⟨he, same, rest, rfl, hrest, hmatch⟩

/-- The parts on an open side of the operand. -/
def openParts (isOpen : Bool) : List PatternPart := if isOpen then [.any] else []

/-- An open side takes away any beginning, a closed one none. -/
theorem open_areMatchedBy_iff {isOpen : Bool} :
    areMatchedBy f (openParts isOpen ++ parts) text = true ↔
      ∃ before rest, text = before ++ rest ∧ (isOpen = false → before = []) ∧
        areMatchedBy f parts rest = true := by
  cases isOpen with
  | false => simp [openParts]
  | true =>
    show areMatchedBy f (.any :: parts) text = true ↔ _
    rw [any_areMatchedBy_iff]
    simp

/-- What an operand that is read as itself is matched by. -/
theorem areMatchedBy_between_iff {isOpen isOpen' : Bool} {operand : List Char} :
    areMatchedBy f (openParts isOpen ++ (operand.map .itself ++ openParts isOpen')) text = true ↔
      ∃ before same behind, text = before ++ (same ++ behind) ∧
        f.folded same = f.folded operand ∧ (isOpen = false → before = []) ∧
        (isOpen' = false → behind = []) := by
  have hbehind (rest : List Char) : areMatchedBy f (openParts isOpen') rest = true ↔
      (isOpen' = false → rest = []) := by
    rw [← List.append_nil (openParts isOpen'), open_areMatchedBy_iff]
    simp [areMatchedBy]
  rw [open_areMatchedBy_iff]
  simp only [itself_areMatchedBy_iff, hbehind]
  constructor
  · rintro ⟨before, -, rfl, hbefore, same, behind, rfl, hsame, hbehind⟩
    exact ⟨before, same, behind, rfl, hsame, hbefore, hbehind⟩
  · rintro ⟨before, same, behind, rfl, hsame, hbefore, hbehind⟩
    exact ⟨before, _, rfl, hbefore, same, behind, rfl, hsame, hbehind⟩

/-! ## A text that matches -/

/-- A shortest text that matches the parts of a pattern. -/
def sample : List PatternPart → List Char
  | [] => []
  | .any :: parts => sample parts
  | .one :: parts => 'a' :: sample parts
  | .itself c :: parts => c :: sample parts

/-- A pattern matches its sample. -/
theorem areMatchedBy_sample (f : CaseFolding) (parts : List PatternPart) :
    areMatchedBy f parts (sample parts) = true := by
  induction parts with
  | nil => rfl
  | cons part parts ih =>
    cases part with
    | any => exact any_areMatchedBy_iff.mpr ⟨[], sample parts, rfl, ih⟩
    | one => exact ih
    | itself c => simpa [sample, areMatchedBy] using ih

/-- What stands behind the operand on an open side. -/
def openChars (isOpen : Bool) : List Char := if isOpen then ['%'] else []

variable {isOpen : Bool}

/-- The characters of an open side are read as one. -/
theorem read_openChars : read (openChars isOpen) = openParts isOpen := by
  cases isOpen <;> rfl

/-- A percent sign is read as anything. -/
theorem read_percent_cons (cs : List Char) : read ('%' :: cs) = .any :: read cs := by
  cases cs <;> rfl

/-- Another character is read by itself, unless it is a backslash. -/
theorem read_cons {c : Char} (hc : c ≠ '\\') (cs : List Char) :
    read (c :: cs) = ofChar c :: read cs := by
  cases cs with
  | nil => rfl
  | cons d rest => rw [read, if_neg hc]

/-- A character behind a backslash is read as itself. -/
theorem read_escaped (d : Char) (cs : List Char) : read ('\\' :: d :: cs) = .itself d :: read cs := by
  rw [read, if_pos rfl]

/-- Where a backslash would take a meaning away: anywhere, but at the end if the pattern ends
there. -/
theorem escape_cons_iff {c : Char} (hc : c ≠ '\\') {operand : List Char} :
    ('\\' ∉ if isOpen then c :: operand else (c :: operand).dropLast) ↔
      '\\' ∉ if isOpen then operand else operand.dropLast := by
  cases isOpen with
  | true => simp [Ne.symm hc]
  | false =>
    cases operand with
    | nil => simp
    | cons d rest => simp [Ne.symm hc]

/-- Without anything that has a meaning, all characters are read as themselves. -/
theorem read_append_openChars {operand : List Char} (hplain : ∀ c ∈ operand, c ≠ '%' ∧ c ≠ '_')
    (hescape : '\\' ∉ if isOpen then operand else operand.dropLast) :
    read (operand ++ openChars isOpen) = operand.map .itself ++ openParts isOpen := by
  induction operand with
  | nil => exact read_openChars
  | cons c operand ih =>
    obtain ⟨⟨hpercent, hunderscore⟩, hrest⟩ := List.forall_mem_cons.mp hplain
    have hitself : ofChar c = .itself c := by simp [ofChar, hpercent, hunderscore]
    by_cases hlast : c = '\\'
    · -- Such a backslash ends the pattern.
      have hend : isOpen = false ∧ operand = [] := by
        cases isOpen with
        | true => simp [hlast] at hescape
        | false => cases operand with
          | nil => exact ⟨rfl, rfl⟩
          | cons d rest => simp [hlast] at hescape
      obtain ⟨rfl, rfl⟩ := hend
      simp [openChars, openParts, read, hitself]
    · have hlater := (escape_cons_iff hlast).mp hescape
      rw [List.cons_append, read_cons hlast, ih hrest hlater, hitself]
      rfl

/-- A character adds at most one to a sample. -/
theorem length_sample_ofChar_le (c : Char) (parts : List PatternPart) :
    (sample (ofChar c :: parts)).length ≤ (sample parts).length + 1 := by
  unfold ofChar
  split
  · simp [sample]
  · split <;> simp [sample]

/-- The sample of an operand is at most as long as the operand. -/
theorem length_sample_read_le (isOpen : Bool) (operand : List Char) :
    (sample (read (operand ++ openChars isOpen))).length ≤ operand.length := by
  induction operand using List.twoStepInduction with
  | nil => cases isOpen <;> simp [openChars, read, ofChar, sample]
  | singleton c =>
    cases isOpen with
    | false => exact length_sample_ofChar_le c []
    | true =>
      show (sample (read [c, '%'])).length ≤ 1
      rw [read]
      split
      · simp [read, sample]
      · exact length_sample_ofChar_le c [.any]
  | cons_cons c d rest ihrest ihcons =>
    by_cases hc : c = '\\'
    · subst hc
      have hlater := ihrest
      simp only [List.cons_append, read_escaped, sample, List.length_cons]
      omega
    · have hlater := ihcons d
      have hfirst := length_sample_ofChar_le c (read (d :: rest ++ openChars isOpen))
      rw [List.cons_append, read_cons hc, List.length_cons]
      omega

/-- A sample that is the operand itself, but for case, shows that the operand is read as itself. -/
theorem plain_of_folded_sample {operand : List Char}
    (hsample : f.folded (sample (read (operand ++ openChars isOpen))) = f.folded operand) :
    (∀ c ∈ operand, c ≠ '%' ∧ c ≠ '_') ∧
      '\\' ∉ if isOpen then operand else operand.dropLast := by
  induction operand with
  | nil => simp
  | cons c operand ih =>
    have hlength (ds : List Char) (hds : f.folded ds = f.folded (c :: operand)) :
        ds.length = operand.length + 1 := by
      have hlength := congrArg List.length hds
      simpa using hlength
    by_cases hescape : c = '\\'
    · subst hescape
      cases operand with
      | nil =>
        cases isOpen with
        | false => simp
        | true =>
          -- The percent sign has lost its meaning, and it is no backslash.
          have hpercent : f.fold '%' = f.fold '\\' := (List.cons.inj hsample).1
          rw [f.fold_eq_iff '\\' (by simp)] at hpercent
          exact absurd hpercent (by decide)
      | cons d rest =>
        have hshort := length_sample_read_le isOpen rest
        have hlong := hlength _ hsample
        simp only [List.cons_append, read_escaped, sample, List.length_cons] at hlong
        omega
    · have hshort := length_sample_read_le isOpen operand
      rw [List.cons_append, read_cons hescape] at hsample
      by_cases hpercent : c = '%'
      · subst hpercent
        have hlong := hlength _ hsample
        simp only [ofChar, if_true, sample] at hlong
        omega
      by_cases hunderscore : c = '_'
      · subst hunderscore
        have hfirst : f.fold 'a' = f.fold '_' := (List.cons.inj hsample).1
        rw [f.fold_eq_iff '_' (by simp)] at hfirst
        exact absurd hfirst (by decide)
      simp only [ofChar, if_neg hpercent, if_neg hunderscore] at hsample
      obtain ⟨hplain, hlater⟩ := ih (List.cons.inj hsample).2
      exact ⟨List.forall_mem_cons.mpr ⟨⟨hpercent, hunderscore⟩, hplain⟩,
        (escape_cons_iff hescape).mpr hlater⟩

end PatternPart

namespace LikePattern

open PatternPart (read openParts openChars areMatchedBy sample)

variable {f : CaseFolding} {p : LikePattern} {operand text : String}

/-- The parts of an operand with the wildcards around it. -/
theorem read_wrap (p : LikePattern) (operand : String) :
    read (p.wrap operand).toList =
      openParts p.isOpenBefore ++ read (operand.toList ++ openChars p.isOpenBehind) := by
  cases p <;>
    simp [wrap, isOpenBefore, isOpenBehind, openParts, openChars, PatternPart.read_percent_cons]

/-- What a pattern says, it says about folded texts. -/
theorem says_iff_folded : p.Says f operand text ↔ ∃ before behind,
    f.folded text.toList = before ++ (f.folded operand.toList ++ behind) ∧
      (p.isOpenBefore = false → before = []) ∧ (p.isOpenBehind = false → behind = []) := by
  cases p with
  | starts => simp [Says, isOpenBefore, isOpenBehind, List.prefix_iff_exists_eq_append]
  | ends => simp [Says, isOpenBefore, isOpenBehind, List.suffix_iff_exists_eq_append]
  | contains => simp [Says, isOpenBefore, isOpenBehind, List.IsInfix, eq_comm]
  | exact => simp [Says, isOpenBefore, isOpenBehind]

/-- The name of a pattern says that the operand is found, with nothing in front of it or behind it
on a side that is not open. -/
theorem says_iff : p.Says f operand text ↔ ∃ before same behind,
    text.toList = before ++ (same ++ behind) ∧ f.folded same = f.folded operand.toList ∧
      (p.isOpenBefore = false → before = []) ∧ (p.isOpenBehind = false → behind = []) := by
  rw [says_iff_folded]
  constructor
  · rintro ⟨before, behind, hsplit, hbefore, hbehind⟩
    obtain ⟨before', rest, htext, rfl, hrest⟩ := List.map_eq_append_iff.mp hsplit
    obtain ⟨same, behind', rfl, hsame, rfl⟩ := List.map_eq_append_iff.mp hrest
    exact ⟨before', same, behind', htext, hsame, by simpa using hbefore, by simpa using hbehind⟩
  · rintro ⟨before, same, behind, htext, hsame, hbefore, hbehind⟩
    refine ⟨f.folded before, f.folded behind, ?_, ?_, ?_⟩
    · rw [← hsame, htext]
      simp [CaseFolding.folded]
    · simpa [CaseFolding.folded] using hbefore
    · simpa [CaseFolding.folded] using hbehind

/-- An operand that a text holds, and that is not shorter than it, is the text but for case. -/
theorem Says.folded_eq (h : p.Says f operand text)
    (hlength : text.toList.length ≤ operand.toList.length) :
    f.folded text.toList = f.folded operand.toList := by
  have hfolded : (f.folded text.toList).length ≤ (f.folded operand.toList).length := by
    simpa using hlength
  have hheld : f.folded operand.toList <:+: f.folded text.toList := by
    cases p with
    | starts => exact List.IsPrefix.isInfix h
    | ends => exact List.IsSuffix.isInfix h
    | contains => exact h
    | exact => exact (show f.folded text.toList = f.folded operand.toList from h) ▸ List.infix_rfl
  exact (hheld.eq_of_length_le hfolded).symm

/-- An operand that is read as itself is matched where the pattern says it stands. -/
theorem likeMatches_wrap_of_plain (hplain : p.ReadsAsItself operand) :
    likeMatches f (p.wrap operand) text = true ↔ p.Says f operand text := by
  rw [likeMatches, read_wrap, PatternPart.read_append_openChars hplain.1 hplain.2,
    PatternPart.areMatchedBy_between_iff, says_iff]

/-- The sample of an operand, as a text. -/
def sampleText (p : LikePattern) (operand : String) : String :=
  String.ofList (sample (read (operand.toList ++ openChars p.isOpenBehind)))

/-- The sample text is matched, whatever the operand. -/
theorem likeMatches_sampleText (p : LikePattern) (f : CaseFolding) (operand : String) :
    likeMatches f (p.wrap operand) (p.sampleText operand) = true := by
  rw [likeMatches, read_wrap, PatternPart.open_areMatchedBy_iff]
  refine ⟨[], (p.sampleText operand).toList, (List.nil_append _).symm, fun _ => rfl, ?_⟩
  rw [sampleText, String.toList_ofList]
  exact PatternPart.areMatchedBy_sample f _

/-- If the sample text has the operand where the pattern says, the operand is read as itself. -/
theorem readsAsItself_of_says_sampleText (hnamed : p.Says f operand (p.sampleText operand)) :
    p.ReadsAsItself operand := by
  have hlist : (p.sampleText operand).toList =
      sample (read (operand.toList ++ openChars p.isOpenBehind)) := String.toList_ofList
  have hlength : (p.sampleText operand).toList.length ≤ operand.toList.length := by
    rw [hlist]
    exact PatternPart.length_sample_read_le p.isOpenBehind operand.toList
  have hfolded := hnamed.folded_eq hlength
  rw [hlist] at hfolded
  exact PatternPart.plain_of_folded_sample hfolded

end LikePattern

/-- The operand of a pattern given by its label is wrapped. -/
theorem likeOperand_label (p : LikePattern) (operand : String) :
    likeOperand (.text operand) (.text p.label) = .ok (p.wrap operand) := by
  simp [likeOperand, LikePattern.ofValue, LikePattern.ofName?_label, Value.display, Except.map]

/-- A condition that a text of its own matches binds the operand with wildcards around it. For every
operand, the texts that match the bound pattern are those that start with the operand, end with it,
contain it or equal it, as the name of the pattern says, exactly if the operand is read as
itself. -/
theorem likeOperand_means_iff (f : CaseFolding) (p : LikePattern) (column : ColumnRef)
    (operand : String) (hoperand : operand ≠ "") :
    ∃ pattern, likeOperand (.text operand) (.text p.label) = .ok pattern ∧
      likeAtom column (.text operand) (.text p.label) = .ok (some (.like column (.text pattern))) ∧
      ((∀ text, likeMatches f pattern text = true ↔ p.Says f operand text) ↔
        p.ReadsAsItself operand) := by
  refine ⟨p.wrap operand, likeOperand_label p operand, ?_, ?_, ?_⟩
  · simp [likeAtom, isVoid, hoperand, likeOperand_label]
  · intro hmeans
    have hsample := (hmeans _).mp (LikePattern.likeMatches_sampleText p f operand)
    exact LikePattern.readsAsItself_of_says_sampleText hsample
  · intro hplain text
    exact LikePattern.likeMatches_wrap_of_plain hplain

/-- An operand of two letters is read as itself, and the texts that start with it are found,
whatever the case of the letters. -/
theorem likeOperand_means_start_of_du :
    "Du" ≠ "" ∧ LikePattern.starts.ReadsAsItself "Du" ∧
      ∃ pattern, likeOperand (.text "Du") (.text LikePattern.starts.label) = .ok pattern ∧
        likeAtom (.ofKey "name") (.text "Du") (.text LikePattern.starts.label) =
          .ok (some (.like (.ofKey "name") (.text pattern))) ∧
        ∀ text, likeMatches .ascii pattern text = true ↔ LikePattern.starts.Says .ascii "Du" text := by
  have hnonempty : "Du" ≠ "" := by decide
  have hitself : LikePattern.starts.ReadsAsItself "Du" := by decide
  obtain ⟨pattern, hoperand, hatom, hmeans⟩ :=
    likeOperand_means_iff .ascii .starts (.ofKey "name") "Du" hnonempty
  exact ⟨hnonempty, hitself, pattern, hoperand, hatom, hmeans.mpr hitself⟩

/-- The underscore of an operand is matched by any character. -/
theorem exact_like_matches_other_text :
    likeOperand (.text "a_b") (.text LikePattern.exact.label) = .ok "a_b" ∧
      likeMatches .ascii "a_b" "axb" = true ∧ ¬LikePattern.exact.Says .ascii "a_b" "axb" := by
  refine ⟨likeOperand_label .exact "a_b", by decide, ?_⟩
  show ¬CaseFolding.ascii.folded "axb".toList = CaseFolding.ascii.folded "a_b".toList
  decide

end Quarry.Sql
