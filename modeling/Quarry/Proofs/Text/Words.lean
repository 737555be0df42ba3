import Quarry.Proofs.Text.Snake

/-!
# The words of a key

A column name is read back as the words of its key. An underscore is no letter and is not looked
through either, so the text before it has no say in the casing of the text behind it, and no other
character has it in its lower-case form. Lower-casing therefore goes word by word, and the words of
a key (cut at its own underscores and at its boundaries, then lower-cased) are the parts of its
column name. Two keys share a column exactly when they have the same words: `aB`, `a_b`, `a_B` and
`A_b` do. Dots are left alone as underscores are.
-/

set_option autoImplicit false

namespace Quarry.Text

/-! ## Lower-casing across an underscore -/

-- The table of these characters has some hundred entries.
set_option maxRecDepth 2000 in
/-- An underscore is not ignorable. -/
theorem isCaseIgnorable_underscore : isCaseIgnorable '_' = false := by decide

/-- What stands behind an underscore does not make a text start cased. -/
theorem startsCased_append_underscore (cs rest : List Char) :
    startsCased (cs ++ '_' :: rest) = startsCased cs := by
  have hcased : isCased '_' = false := rfl
  induction cs with
  | nil => simp [startsCased, isCaseIgnorable_underscore, hcased]
  | cons c cs ih =>
    by_cases hc : isCaseIgnorable c = true
    · simpa [startsCased, hc] using ih
    · simp [startsCased, hc]

/-- What stands before an underscore does not matter behind it. -/
theorem lowerFrom_append_underscore (near far cs : List Char) :
    lowerFrom (near ++ '_' :: far) cs = lowerFrom near cs := by
  induction cs generalizing near with
  | nil => rfl
  | cons c cs ih =>
    have htail := ih (c :: near)
    have hsigma : sigmaEndsWord (near ++ '_' :: far) cs = sigmaEndsWord near cs := by
      rw [sigmaEndsWord, sigmaEndsWord, startsCased_append_underscore]
    rw [List.cons_append] at htail
    rw [lowerFrom, lowerFrom, hsigma, htail]

/-- A text is lowered up to the underscore and behind it. -/
theorem lowerFrom_underscore (before cs rest : List Char) :
    lowerFrom before (cs ++ '_' :: rest) = lowerFrom before cs ++ '_' :: lower rest := by
  induction cs generalizing before with
  | nil =>
    have hself : lowerChar '_' = ['_'] := lowerChar_of_ascii (by decide) (by decide)
    have hrest : lowerFrom ('_' :: before) rest = lower rest :=
      lowerFrom_append_underscore [] before rest
    simp [lowerFrom, hself, hrest]
  | cons c cs ih =>
    have hsigma : sigmaEndsWord before (cs ++ '_' :: rest) = sigmaEndsWord before cs := by
      rw [sigmaEndsWord, sigmaEndsWord, startsCased_append_underscore]
    rw [List.cons_append, lowerFrom, lowerFrom, hsigma, ih, List.append_assoc]

/-! ## Characters in front of the small letters -/

/-- No run leads to a character in front of the small letters. -/
theorem small_letters_le_target : (lowerRuns.all fun r => Nat.ble 0x61 r.target) = true := by
  decide

/-- Of what stands in front of the small letters nothing is in the lower-case form of another
character. -/
theorem eq_of_mem_lowerChar {x c : Char} (hpos : 0 < x.toNat) (hx : x.toNat < 0x61)
    (h : x ∈ lowerChar c) : c = x := by
  unfold lowerChar at h
  split_ifs at h with hletter hascii
  · obtain ⟨hfirst, hlast⟩ := letter_bounds hletter
    have hvalue : (Char.ofNat (c.toNat + 32)).toNat = c.toNat + 32 := toNat_ofNat (.inl (by omega))
    rw [← List.mem_singleton.mp h] at hvalue
    omega
  · exact (List.mem_singleton.mp h).symm
  · unfold caseMap at h
    split at h
    · rename_i form hform
      obtain ⟨r, hr, hfind⟩ := List.exists_of_findSome?_eq_some hform
      have hform : 0x61 ≤ form := by
        have htarget : 0x61 ≤ r.target :=
          Nat.le_of_ble_eq_true (List.all_eq_true.mp small_letters_le_target r hr)
        obtain ⟨-, -, -, rfl⟩ := CaseRun.find?_eq_some_iff.mp hfind
        omega
      have hsame := List.mem_singleton.mp h
      by_cases hvalid : form.isValidChar
      · have hvalue := toNat_ofNat hvalid
        rw [← hsame] at hvalue
        omega
      · have hzero : Char.ofNat form = '\x00' := by rw [Char.ofNat, dif_neg hvalid]; rfl
        rw [hsame, hzero] at hpos
        exact absurd hpos (by decide)
    · split at h
      · rename_i e he
        have hmem := List.mem_of_find?_eq_some he
        obtain rfl : e = (0x130, [0x69, 0x307]) := by simpa [lowerExpansions] using hmem
        obtain rfl | rfl : x = Char.ofNat 0x69 ∨ x = Char.ofNat 0x307 := by simpa using h
        · exact absurd hx (by decide)
        · exact absurd hx (by decide)
      · exact (List.mem_singleton.mp h).symm

/-- What stands in front of the small letters was there before lowering. -/
theorem mem_of_mem_lowerFrom {x : Char} (hpos : 0 < x.toNat) (hx : x.toNat < 0x61) {before cs : List Char}
    (h : x ∈ lowerFrom before cs) : x ∈ cs := by
  induction cs generalizing before with
  | nil => exact nomatch h
  | cons c cs ih =>
    obtain hhere | hrest := List.mem_append.mp h
    · split_ifs at hhere
      · obtain rfl := List.mem_singleton.mp hhere
        exact absurd hx (by decide)
      · obtain rfl := List.mem_singleton.mp hhere
        exact absurd hx (by decide)
      · rw [eq_of_mem_lowerChar hpos hx hhere]
        exact List.mem_cons_self
    · exact List.mem_cons_of_mem c (ih hrest)

/-- What is its own small letter stays. -/
theorem mem_lowerFrom {x : Char} (hself : lowerChar x = [x]) {cs : List Char} (h : x ∈ cs)
    (before : List Char) : x ∈ lowerFrom before cs := by
  have hsigma : x ≠ 'Σ' := by
    rintro rfl
    exact absurd hself (by decide)
  induction cs generalizing before with
  | nil => exact nomatch h
  | cons c cs ih =>
    obtain rfl | hrest := List.mem_cons.mp h
    · rw [lowerFrom, if_neg hsigma, hself]
      exact List.mem_cons_self
    · exact List.mem_append_right _ (ih hrest (c :: before))

namespace Name

/-! ## Words -/

/-- There is always a part. -/
theorem parts_ne_nil (cs : List Char) : parts cs ≠ [] := by
  cases cs with
  | nil => exact List.cons_ne_nil _ _
  | cons c cs =>
    rw [parts]
    split_ifs
    · exact List.cons_ne_nil _ _
    · cases parts cs <;> exact List.cons_ne_nil _ _

/-- The parts of a name are what its underscores separate. -/
theorem parts_eq_splitOn (cs : List Char) : parts cs = cs.splitOn '_' := by
  induction cs with
  | nil => rfl
  | cons c cs ih =>
    rw [parts, List.splitOn_cons_eq_if_modifyHead, ← ih]
    by_cases hc : c = '_'
    · simp [hc]
    · rw [if_neg hc, if_neg (by simpa using hc)]
      obtain ⟨p, ps, hparts⟩ := List.exists_cons_of_ne_nil (parts_ne_nil cs)
      rw [hparts]
      rfl

/-- There is no underscore in a part. -/
theorem not_mem_of_mem_parts {cs p : List Char} (h : p ∈ parts cs) : '_' ∉ p := by
  induction cs generalizing p with
  | nil =>
    obtain rfl := List.mem_singleton.mp h
    exact List.not_mem_nil
  | cons c cs ih =>
    rw [parts] at h
    split_ifs at h with hc
    · obtain rfl | hp := List.mem_cons.mp h
      · exact List.not_mem_nil
      · exact ih hp
    · obtain ⟨q, qs, hparts⟩ := List.exists_cons_of_ne_nil (parts_ne_nil cs)
      rw [hparts] at h ih
      obtain rfl | hp := List.mem_cons.mp h
      · intro hmem
        obtain rfl | hq := List.mem_cons.mp hmem
        · exact hc rfl
        · exact ih List.mem_cons_self hq
      · exact ih (List.mem_cons_of_mem q hp)

/-- The words of a key, in lower case. -/
def words (cs : List Char) : List (List Char) := (parts (markBoundaries cs)).map lower

/-- Lower-casing goes part by part. -/
theorem lower_intercalate (ps : List (List Char)) :
    lower (['_'].intercalate ps) = ['_'].intercalate (ps.map lower) := by
  induction ps with
  | nil => rfl
  | cons p ps ih =>
    cases ps with
    | nil => simp [List.intercalate_singleton]
    | cons q ps =>
      rw [List.intercalate_cons_cons, List.append_assoc, List.singleton_append, lower,
        lowerFrom_underscore, ih]
      simp [List.intercalate_cons_cons, lower]

/-- The snake form is its words with underscores between them. -/
theorem snake_eq_intercalate (cs : List Char) : snake cs = ['_'].intercalate (words cs) := by
  have hjoin : ['_'].intercalate (parts (markBoundaries cs)) = markBoundaries cs := by
    rw [parts_eq_splitOn]
    exact List.intercalate_splitOn '_'
  rw [snake, words, ← lower_intercalate, hjoin]

/-- There is no underscore in a word. -/
theorem not_mem_of_mem_words {cs word : List Char} (h : word ∈ words cs) : '_' ∉ word := by
  obtain ⟨p, hp, rfl⟩ := List.mem_map.mp h
  exact mt (mem_of_mem_lowerFrom (by decide) (by decide)) (not_mem_of_mem_parts hp)

/-- A column name falls apart into the words of its key. -/
theorem parts_snake (cs : List Char) : parts (snake cs) = words cs := by
  rw [parts_eq_splitOn, snake_eq_intercalate]
  apply List.splitOn_intercalate
  · intro word hword
    exact not_mem_of_mem_words hword
  · intro hnil
    exact parts_ne_nil _ (List.map_eq_nil_iff.mp hnil)

/-- Texts have one snake form exactly if they have the same words. -/
theorem snake_eq_iff {cs cs' : List Char} : snake cs = snake cs' ↔ words cs = words cs' := by
  constructor
  · intro hsame
    rw [← parts_snake, ← parts_snake, hsame]
  · intro hsame
    rw [snake_eq_intercalate, snake_eq_intercalate, hsame]

/-- Two keys have one column name when they have the same words. -/
theorem toSnake_eq_iff {name name' : String} :
    toSnake name = toSnake name' ↔ words name.toList = words name'.toList := by
  rw [toSnake, toSnake, String.ofList_inj]
  exact snake_eq_iff

example : words "novelID".toList = ["novel".toList, "id".toList] := rfl

/-! ## Dots -/

/-- Marking boundaries adds underscores alone. -/
theorem mem_markBoundaries_iff {x : Char} (hx : x ≠ '_') (cs : List Char) :
    x ∈ markBoundaries cs ↔ x ∈ cs := by
  induction cs using markBoundaries.induct with
  | case1 a b rest hboundary ih =>
    rw [markBoundaries, if_pos hboundary]
    simp [hx, ih]
  | case2 a b rest hnone ih =>
    rw [markBoundaries, if_neg hnone]
    simp [ih]
  | case3 rest hshort =>
    cases rest with
    | nil => rfl
    | cons a rest =>
      cases rest with
      | nil => rfl
      | cons b rest => exact absurd rfl (hshort a b rest)

/-- A column name is dotted if its key is. -/
theorem dot_mem_toSnake_iff (key : String) : '.' ∈ (toSnake key).toList ↔ '.' ∈ key.toList := by
  have hmarked := mem_markBoundaries_iff (x := '.') (by decide) key.toList
  rw [toSnake, String.toList_ofList, snake, lower, ← hmarked]
  constructor
  · intro h
    exact mem_of_mem_lowerFrom (by decide) (by decide) h
  · intro h
    exact mem_lowerFrom (lowerChar_of_ascii (by decide) (by decide)) h []

end Name

end Quarry.Text
