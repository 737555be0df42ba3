import Mathlib.Data.List.Chain
import Quarry.Proofs.Text.Words

/-!
# Keys and columns of the same words

A name is made of words: of `chapter`, `is` and `open` the key `chapterIsOpen` and the column
`chapter_is_open`. The two are made into each other (`snake_inCamel`, `camel_intercalate`) as long
as every word shows in the key. A word shows if its first letter becomes a capital behind a small
letter or a digit; so a word of one letter must not be followed by another word, unless it is the
first one. The keys and columns that people choose are made of such words: a key in which no two
capitals meet (`exists_words`), and a column that has something behind each of its underscores. On
these names the two conversions undo each other.
-/

set_option autoImplicit false

namespace Quarry.Text.Name

/-! ## Letters -/

/-- Whether a character is a small letter. -/
def isSmall (c : Char) : Bool := 'a' <= c && c <= 'z'

/-- The small letters are those from a to z. -/
theorem isSmall_iff {c : Char} : isSmall c = true ↔ 0x61 ≤ c.toNat ∧ c.toNat ≤ 0x7A := by
  rw [isSmall, Bool.and_eq_true, decide_eq_true_iff, decide_eq_true_iff]
  rfl

/-- The letters that start a word are those from A to Z. -/
theorem startsWord_iff {c : Char} : startsWord c = true ↔ 0x41 ≤ c.toNat ∧ c.toNat ≤ 0x5A := by
  rw [startsWord, Bool.and_eq_true, decide_eq_true_iff, decide_eq_true_iff]
  rfl

/-- A small letter may end a word. -/
theorem endsWord_of_isSmall {c : Char} (h : isSmall c = true) : endsWord c = true := by
  rw [endsWord, Bool.or_eq_true]
  exact .inl h

/-- What may end a word is a small letter or a digit. -/
theorem endsWord_bounds {c : Char} (h : endsWord c = true) :
    0x61 ≤ c.toNat ∧ c.toNat ≤ 0x7A ∨ 0x30 ≤ c.toNat ∧ c.toNat ≤ 0x39 := by
  simp only [endsWord, Bool.or_eq_true, Bool.and_eq_true, decide_eq_true_iff] at h
  exact h

/-- What may end a word does not start one. -/
theorem startsWord_of_endsWord {c : Char} (h : endsWord c = true) : startsWord c = false := by
  refine Bool.eq_false_iff.mpr fun hcapital => ?_
  have hbounds := startsWord_iff.mp hcapital
  have hends := endsWord_bounds h
  omega

/-- What may end a word is its own small form. -/
theorem lowerChar_of_endsWord {c : Char} (h : endsWord c = true) : lowerChar c = [c] := by
  have hends := endsWord_bounds h
  refine lowerChar_of_ascii (by omega) fun hcapital => ?_
  have hbounds := startsWord_iff.mp (by simpa [startsWord] using hcapital)
  omega

/-- A small letter has a capital. -/
theorem exists_capital {c : Char} (h : isSmall c = true) :
    ∃ b, upperChar c = [b] ∧ startsWord b = true ∧ lowerChar b = [c] := by
  obtain ⟨hfirst, hlast⟩ := isSmall_iff.mp h
  have hvalue : (Char.ofNat (c.toNat - 32)).toNat = c.toNat - 32 := toNat_ofNat (.inl (by omega))
  have hcapital : startsWord (Char.ofNat (c.toNat - 32)) = true := startsWord_iff.mpr (by omega)
  refine ⟨_, if_pos h, hcapital, (if_pos hcapital).trans ?_⟩
  rw [hvalue, Nat.sub_add_cancel (by omega), Char.ofNat_toNat]

/-- A capital is the capital of a small letter. -/
theorem exists_small {b : Char} (h : startsWord b = true) : ∃ c, isSmall c = true ∧ upperChar c = [b] := by
  obtain ⟨hfirst, hlast⟩ := startsWord_iff.mp h
  have hvalue : (Char.ofNat (b.toNat + 32)).toNat = b.toNat + 32 := toNat_ofNat (.inl (by omega))
  have hsmall : isSmall (Char.ofNat (b.toNat + 32)) = true := isSmall_iff.mpr (by omega)
  refine ⟨_, hsmall, (if_pos hsmall).trans ?_⟩
  rw [hvalue, Nat.add_sub_cancel, Char.ofNat_toNat]

/-! ## Words -/

/-- A word: small letters and digits, with a letter at the beginning. -/
def IsWord : List Char → Prop
  | [] => False
  | c :: rest => isSmall c = true ∧ ∀ d ∈ rest, endsWord d = true

/-- Whether characters are a word can be computed. -/
instance : DecidablePred IsWord
  | [] => inferInstanceAs (Decidable False)
  | c :: rest =>
    decidable_of_iff (isSmall c = true ∧ rest.all endsWord = true)
      (and_congr_right' List.all_eq_true)

/-- Words of which each shows in a name: only the first and the last may be single letters. -/
structure AreWords (ws : List (List Char)) : Prop where
  nonempty : ws ≠ []
  words : ∀ w ∈ ws, IsWord w
  long : ∀ w ∈ ws.tail.dropLast, 2 ≤ w.length

/-- Words in one, each but the first with a capital. -/
def inCamel : List (List Char) → List Char
  | [] => []
  | first :: rest => first ++ rest.flatMap capitalize

namespace IsWord

variable {w : List Char}

/-- A word has a small letter first. -/
theorem exists_cons (h : IsWord w) :
    ∃ c rest, w = c :: rest ∧ isSmall c = true ∧ ∀ d ∈ rest, endsWord d = true := by
  cases w with
  | nil => exact h.elim
  | cons c rest => exact ⟨c, rest, rfl, h⟩

/-- A word has only characters that may end one. -/
theorem endsWord_of_mem (h : IsWord w) : ∀ c ∈ w, endsWord c = true := by
  obtain ⟨c, rest, rfl, hc, hrest⟩ := h.exists_cons
  exact List.forall_mem_cons.mpr ⟨endsWord_of_isSmall hc, hrest⟩

/-- There is no underscore in a word. -/
theorem underscore_not_mem (h : IsWord w) : '_' ∉ w :=
  fun hmem => absurd (h.endsWord_of_mem _ hmem) (by decide)

/-- A word is its own small form. -/
theorem lower_eq (h : IsWord w) : lower w = w := by
  have hlower : IsLower w := fun c hc => lowerChar_of_endsWord (h.endsWord_of_mem c hc)
  exact hlower.lowerFrom_eq []

/-- A word with a capital: the capital, which is that of the word's first letter, and the rest of
the word. -/
theorem exists_capitalize (h : IsWord w) : ∃ b rest, capitalize w = b :: rest ∧ startsWord b = true ∧
    (∀ c ∈ rest, endsWord c = true) ∧ rest.length + 1 = w.length ∧ lower (b :: rest) = w := by
  obtain ⟨c, rest, rfl, hc, hrest⟩ := h.exists_cons
  obtain ⟨b, hupper, hb, hlower⟩ := exists_capital hc
  have hsigma : b ≠ 'Σ' := by
    rintro rfl
    exact absurd hb (by decide)
  have hrestLower : IsLower rest := fun d hd => lowerChar_of_endsWord (hrest d hd)
  refine ⟨b, rest, by rw [capitalize, hupper]; rfl, hb, hrest, rfl, ?_⟩
  rw [lower, lowerFrom, if_neg hsigma, hlower, hrestLower.lowerFrom_eq]
  rfl

end IsWord

/-! ## From a key to a column -/

/-- Without a capital behind its first character a text has no boundaries. -/
theorem markBoundaries_eq_self {a : Char} {cs : List Char} (h : ∀ c ∈ cs, startsWord c = false) :
    markBoundaries (a :: cs) = a :: cs := by
  induction cs generalizing a with
  | nil => rfl
  | cons b cs ih =>
    obtain ⟨hb, hcs⟩ := List.forall_mem_cons.mp h
    rw [markBoundaries, hb, Bool.and_false, if_neg Bool.false_ne_true, ih hcs]

/-- A capital behind a small letter or a digit begins a word. -/
theorem markBoundaries_append {a b : Char} {cs rest : List Char} (hcs : ∀ c ∈ cs, startsWord c = false)
    (hlast : endsWord ((a :: cs).getLast (List.cons_ne_nil a cs)) = true) (hb : startsWord b = true) :
    markBoundaries (a :: cs ++ b :: rest) = a :: cs ++ '_' :: markBoundaries (b :: rest) := by
  induction cs generalizing a with
  | nil =>
    have ha : endsWord a = true := hlast
    simp [markBoundaries, ha, hb]
  | cons c cs ih =>
    obtain ⟨hc, hcs⟩ := List.forall_mem_cons.mp hcs
    have hbehind := ih hcs hlast
    rw [List.cons_append, List.cons_append] at hbehind ⊢
    rw [markBoundaries, hc, Bool.and_false, if_neg Bool.false_ne_true, hbehind]
    rfl

/-- The boundaries of words in one are where the words begin. -/
theorem markBoundaries_flatMap {a : Char} {cs : List Char} {ws : List (List Char)}
    (hcs : ∀ c ∈ cs, startsWord c = false) (hwords : ∀ w ∈ ws, IsWord w)
    (hends : ws ≠ [] → endsWord ((a :: cs).getLast (List.cons_ne_nil a cs)) = true)
    (hlong : ∀ w ∈ ws.dropLast, 2 ≤ w.length) :
    markBoundaries (a :: cs ++ ws.flatMap capitalize) =
      ['_'].intercalate ((a :: cs) :: ws.map capitalize) := by
  induction ws generalizing a cs with
  | nil => simpa using markBoundaries_eq_self hcs
  | cons w ws ih =>
    obtain ⟨hw, hws⟩ := List.forall_mem_cons.mp hwords
    obtain ⟨b, rest, hcapital, hb, hrest, hlength, -⟩ := hw.exists_capitalize
    have hnone : ∀ c ∈ rest, startsWord c = false := fun c hc => startsWord_of_endsWord (hrest c hc)
    have hlater : ∀ v ∈ ws.dropLast, 2 ≤ v.length := by
      intro v hv
      refine hlong v ?_
      rw [List.dropLast_cons_of_ne_nil (List.ne_nil_of_mem (List.dropLast_subset ws hv))]
      exact List.mem_cons_of_mem w hv
    -- Where another word follows, this one has more than its capital, and so ends in front of that word.
    have hlast : ws ≠ [] → endsWord ((b :: rest).getLast (List.cons_ne_nil b rest)) = true := by
      intro hmore
      have htwo : 2 ≤ w.length :=
        hlong w (by rw [List.dropLast_cons_of_ne_nil hmore]; exact List.mem_cons_self)
      have hrestNil : rest ≠ [] := by
        rintro rfl
        rw [List.length_nil] at hlength
        omega
      rw [List.getLast_cons hrestNil]
      exact hrest _ (List.getLast_mem hrestNil)
    have hjoined : (w :: ws).flatMap capitalize = b :: (rest ++ ws.flatMap capitalize) := by
      rw [List.flatMap_cons, hcapital]
      rfl
    have hbehind : markBoundaries (b :: (rest ++ ws.flatMap capitalize)) =
        ['_'].intercalate ((b :: rest) :: ws.map capitalize) := ih hnone hws hlast hlater
    rw [hjoined, markBoundaries_append hcs (hends (List.cons_ne_nil w ws)) hb, hbehind,
      List.map_cons, hcapital, List.intercalate_cons_cons, List.append_assoc]
    rfl

/-- The column of the key that is made of some words is made of the same words. -/
theorem snake_inCamel {ws : List (List Char)} (h : AreWords ws) :
    snake (inCamel ws) = ['_'].intercalate ws := by
  obtain ⟨first, rest, rfl⟩ := List.exists_cons_of_ne_nil h.nonempty
  obtain ⟨hfirst, hrest⟩ := List.forall_mem_cons.mp h.words
  have hlowered : (rest.map capitalize).map lower = rest := by
    rw [List.map_map]
    refine (List.map_congr_left fun w hw => ?_).trans (List.map_id rest)
    obtain ⟨b, tail, hcapital, -, -, -, hlower⟩ := (hrest w hw).exists_capitalize
    rw [Function.comp_apply, hcapital, hlower, id]
  have hmarked : markBoundaries (first ++ rest.flatMap capitalize) =
      ['_'].intercalate (first :: rest.map capitalize) := by
    have hends := hfirst.endsWord_of_mem
    obtain ⟨a, cs, rfl, -, hcs⟩ := hfirst.exists_cons
    exact markBoundaries_flatMap (fun c hc => startsWord_of_endsWord (hcs c hc)) hrest
      (fun _ => hends _ (List.getLast_mem _)) h.long
  rw [inCamel, snake, hmarked, lower_intercalate, List.map_cons, hfirst.lower_eq, hlowered]

/-- The key of the column that is made of some words is made of the same words. -/
theorem camel_intercalate {ws : List (List Char)} (h : AreWords ws) :
    camel (['_'].intercalate ws) = inCamel ws := by
  have hparts : parts (['_'].intercalate ws) = ws := by
    rw [parts_eq_splitOn]
    exact List.splitOn_intercalate '_' (fun w hw => (h.words w hw).underscore_not_mem) h.nonempty
  rw [camel, hparts]
  cases ws <;> rfl

/-! ## The words of a key -/

/-- What follows the first character of a name in which no two capitals meet: the rest of its first
word, and further words. Behind a capital the first word goes on if other words follow. -/
theorem exists_rest {a : Char} {cs : List Char} (hchars : ∀ c ∈ cs, endsWord c = true ∨ startsWord c = true)
    (hapart : (a :: cs).IsChain fun c d => ¬(startsWord c = true ∧ startsWord d = true)) :
    ∃ first rest, cs = first ++ rest.flatMap capitalize ∧ (∀ c ∈ first, endsWord c = true) ∧
      (∀ w ∈ rest, IsWord w) ∧ (∀ w ∈ rest.dropLast, 2 ≤ w.length) ∧
      (startsWord a = true → rest ≠ [] → first ≠ []) := by
  induction cs generalizing a with
  | nil => exact ⟨[], [], rfl, nofun, nofun, nofun, fun _ hrest => absurd rfl hrest⟩
  | cons b cs ih =>
    obtain ⟨hb, hcs⟩ := List.forall_mem_cons.mp hchars
    obtain ⟨hfirst, hlater⟩ := List.isChain_cons_cons.mp hapart
    obtain ⟨first, rest, rfl, hends, hwords, hlong, hgoes⟩ := ih hcs hlater
    obtain hb | hb := hb
    · exact ⟨b :: first, rest, rfl, List.forall_mem_cons.mpr ⟨hb, hends⟩, hwords, hlong,
        fun _ _ => List.cons_ne_nil b first⟩
    · obtain ⟨c, hc, hupper⟩ := exists_small hb
      refine ⟨[], (c :: first) :: rest, ?_, nofun, ?_, ?_, fun ha => absurd ⟨ha, hb⟩ hfirst⟩
      · simp [capitalize, hupper]
      · exact List.forall_mem_cons.mpr ⟨⟨hc, hends⟩, hwords⟩
      · intro w hw
        have hmore : rest ≠ [] := by
          rintro rfl
          exact nomatch hw
        rw [List.dropLast_cons_of_ne_nil hmore] at hw
        obtain rfl | hw := List.mem_cons.mp hw
        · have hlength := List.length_pos_iff.mpr (hgoes hb hmore)
          rw [List.length_cons]
          omega
        · exact hlong w hw

/-- A name in camel case: letters and digits, with a small letter at the beginning, and no two
capitals that meet. -/
structure IsCamelCase (name : String) : Prop where
  chars : ∀ c ∈ name.toList, endsWord c = true ∨ startsWord c = true
  begins : ∃ c, name.toList.head? = some c ∧ isSmall c = true
  apart : name.toList.IsChain fun c d => ¬(startsWord c = true ∧ startsWord d = true)

/-- A name in snake case: words with underscores between them, of which only the first and the last
may be single letters. -/
structure IsSnakeCase (name : String) : Prop where
  words : ∀ w ∈ name.toList.splitOn '_', IsWord w
  long : ∀ w ∈ (name.toList.splitOn '_').tail.dropLast, 2 ≤ w.length

/-- Whether a name is in camel case can be computed. -/
instance : DecidablePred IsCamelCase := fun name =>
  decidable_of_iff (name.toList.all (fun c => endsWord c || startsWord c) = true ∧
      name.toList.head?.any isSmall = true ∧
      name.toList.IsChain fun c d => ¬(startsWord c = true ∧ startsWord d = true)) <| by
    simp only [List.all_eq_true, Bool.or_eq_true, Option.any_eq_true]
    exact ⟨fun ⟨hchars, hbegins, hapart⟩ => ⟨hchars, hbegins, hapart⟩, fun h => ⟨h.chars, h.begins, h.apart⟩⟩

/-- Whether a name is in snake case can be computed. -/
instance : DecidablePred IsSnakeCase := fun name =>
  decidable_of_iff ((∀ w ∈ name.toList.splitOn '_', IsWord w) ∧
      ∀ w ∈ (name.toList.splitOn '_').tail.dropLast, 2 ≤ w.length)
    ⟨fun ⟨hwords, hlong⟩ => ⟨hwords, hlong⟩, fun h => ⟨h.words, h.long⟩⟩

/-- A name in camel case is made of words. -/
theorem IsCamelCase.exists_words {name : String} (h : IsCamelCase name) :
    ∃ ws, AreWords ws ∧ name.toList = inCamel ws := by
  obtain ⟨c, hbegins, hc⟩ := h.begins
  obtain ⟨cs, hname⟩ := List.head?_eq_some_iff.mp hbegins
  have hchars := h.chars
  have hapart := h.apart
  rw [hname] at hchars hapart
  obtain ⟨first, rest, hcs, hends, hwords, hlong, -⟩ :=
    exists_rest (fun d hd => hchars d (List.mem_cons_of_mem c hd)) hapart
  refine ⟨(c :: first) :: rest, ⟨List.cons_ne_nil _ _, ?_, hlong⟩, by rw [hname, hcs]; rfl⟩
  exact List.forall_mem_cons.mpr ⟨⟨hc, hends⟩, hwords⟩

/-- A name in snake case is made of words. -/
theorem IsSnakeCase.exists_words {name : String} (h : IsSnakeCase name) :
    ∃ ws, AreWords ws ∧ name.toList = ['_'].intercalate ws :=
  ⟨_, ⟨List.splitOn_ne_nil _ _, h.words, h.long⟩, (List.intercalate_splitOn '_').symm⟩

/-- A name in camel case is the key of its column, and a name in snake case is the column of its
key. -/
theorem case_invertible :
    (∀ name, IsCamelCase name → toCamel (toSnake name) = name) ∧
      ∀ name, IsSnakeCase name → toSnake (toCamel name) = name := by
  constructor
  · intro name h
    obtain ⟨ws, hws, hname⟩ := h.exists_words
    rw [toCamel, toSnake, String.toList_ofList, hname, snake_inCamel hws, camel_intercalate hws, ← hname,
      String.ofList_toList]
  · intro name h
    obtain ⟨ws, hws, hname⟩ := h.exists_words
    rw [toCamel, toSnake, String.toList_ofList, hname, camel_intercalate hws, snake_inCamel hws, ← hname,
      String.ofList_toList]

-- A single letter between others does not show: the two capitals meet.
example : toSnake (toCamel "a_b_c") = "a_bc" := by decide +kernel

/-- Names with digits in front of capitals, and with single letters where they may be. -/
theorem case_invertible_parts :
    IsCamelCase "a1Novel2PartX" ∧ toCamel (toSnake "a1Novel2PartX") = "a1Novel2PartX" ∧
      IsSnakeCase "a_novel2_of_b" ∧ toSnake (toCamel "a_novel2_of_b") = "a_novel2_of_b" := by
  have hcamel : IsCamelCase "a1Novel2PartX" := by decide
  have hsnake : IsSnakeCase "a_novel2_of_b" := by decide
  exact ⟨hcamel, case_invertible.1 _ hcamel, hsnake, case_invertible.2 _ hsnake⟩

end Quarry.Text.Name
