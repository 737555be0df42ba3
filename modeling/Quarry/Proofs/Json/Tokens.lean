import Quarry.Proofs.Json.Grammar
import Quarry.Proofs.Json.Plain

/-!
# Texts, numbers and words recognized

Texts in quotes, numbers and words are read exactly where the grammar has them. Both directions
follow the readers part by part: what is read is text of the grammar (`exists_scalarText`), and text
of the grammar is read if it stands in front of something that ends a value, since only then no more
of it could belong to a number (`ScalarText.read`).
-/

set_option autoImplicit false

namespace Quarry.Json

variable {gs front rest : List Glyph} {negative : Bool}

/-! ## Texts -/

/-- A glyph that is no control character, quote or backslash is read as it is. -/
theorem readParts?_glyph {g : Glyph} (hplain : ∀ c, g = .char c → 0x20 ≤ c.toNat ∧ c ≠ '"' ∧ c ≠ '\\')
    (tail : List Glyph) :
    readParts? (g :: tail) = (readParts? tail).map fun (ps, r) => (.glyph g :: ps, r) := by
  have hnot : ¬(g.any fun c => c.toNat < 0x20 || c == '\\') = true := by
    cases g with
    | half n => simp [Glyph.any]
    | char c =>
      obtain ⟨hvisible, -, hslash⟩ := hplain c rfl
      simp [Glyph.any, hslash]
      omega
  rw [readParts?.eq_def]
  split
  · rename_i h
    exact nomatch h
  · rename_i h
    obtain ⟨rfl, -⟩ := List.cons.inj h
    exact absurd rfl (hplain '"' rfl).2.1
  · rename_i h
    obtain ⟨rfl, -⟩ := List.cons.inj h
    exact absurd rfl (hplain '\\' rfl).2.2
  · rename_i h
    obtain ⟨rfl, -⟩ := List.cons.inj h
    exact absurd rfl (hplain '\\' rfl).2.2
  · rename_i h
    obtain ⟨rfl, rfl⟩ := List.cons.inj h
    rw [if_neg hnot]

/-- A part of a text is read from before the rest. -/
theorem PartText.read {p : TextPart} (h : PartText front p) (tail : List Glyph) :
    readParts? (front ++ tail) = (readParts? tail).map fun (ps, r) => (p :: ps, r) := by
  cases h with
  | glyph hplain => exact readParts?_glyph hplain tail
  | @escape c e h =>
    have hne : c ≠ 'u' := by
      rintro rfl
      exact nomatch h
    rw [List.cons_append, List.cons_append, List.nil_append, readParts?]
    · simp [h]
    · exact fun _ _ _ _ _ _ hu => hne hu
  | unit h => simp [readParts?, h]

/-- All parts of a text are read up to the quotation mark that ends it. -/
theorem PartsText.read {ps : List TextPart} (h : PartsText front ps) (rest : List Glyph) :
    readParts? (front ++ .char '"' :: rest) = some (ps, rest) := by
  induction h with
  | nil => simp [readParts?]
  | cons hpart _ ih =>
    rw [List.append_assoc, hpart.read, ih]
    rfl

/-- What is read of a part and of what follows is text of the parts if this holds of what
follows. -/
theorem PartText.exists_partsText {tail : List Glyph} {p : TextPart} {ps : List TextPart}
    (hpart : PartText front p)
    (ih : ∀ {ps}, readParts? tail = some (ps, rest) →
      ∃ body, PartsText body ps ∧ tail = body ++ .char '"' :: rest)
    (h : (readParts? tail).map (fun (ps, r) => (p :: ps, r)) = some (ps, rest)) :
    ∃ body, PartsText body ps ∧ front ++ tail = body ++ .char '"' :: rest := by
  obtain ⟨⟨qs, behind⟩, hread, heq⟩ := Option.map_eq_some_iff.mp h
  obtain ⟨rfl, rfl⟩ := Prod.mk.inj heq
  obtain ⟨body, hbody, rfl⟩ := ih hread
  exact ⟨front ++ body, .cons hpart hbody, (List.append_assoc _ _ _).symm⟩

/-- What is read as the parts of a text is written so. -/
theorem exists_partsText {ps : List TextPart} (h : readParts? gs = some (ps, rest)) :
    ∃ body, PartsText body ps ∧ gs = body ++ .char '"' :: rest := by
  fun_induction readParts? gs generalizing ps with
  | case1 => exact nomatch h
  | case2 =>
    obtain ⟨rfl, rfl⟩ := Prod.mk.inj (Option.some.inj h)
    exact ⟨[], .nil, rfl⟩
  | case3 _ _ _ _ _ _ hunit ih => exact (PartText.unit hunit).exists_partsText ih h
  | case4 => exact nomatch h
  | case5 _ _ _ _ hescape ih => exact (PartText.escape hescape).exists_partsText ih h
  | case6 => exact nomatch h
  | case7 => exact nomatch h
  | case8 g _ hquote _ _ hvisible ih =>
    refine (PartText.glyph fun c hc => ?_).exists_partsText ih h
    subst hc
    obtain ⟨hsize, hslash⟩ : ¬c.toNat < 0x20 ∧ c ≠ '\\' := by simpa [Glyph.any] using hvisible
    exact ⟨Nat.not_lt.mp hsize, fun heq => hquote (congrArg Glyph.char heq), hslash⟩

/-- A text in quotes is read exactly where it stands. -/
theorem readText?_eq_some_iff {t : List Glyph} :
    readText? gs = some (t, rest) ↔ ∃ front, QuotedText front t ∧ .char '"' :: gs = front ++ rest := by
  constructor
  · intro h
    obtain ⟨⟨ps, behind⟩, hread, heq⟩ := Option.map_eq_some_iff.mp h
    obtain ⟨rfl, rfl⟩ := Prod.mk.inj heq
    obtain ⟨body, hbody, rfl⟩ := exists_partsText hread
    exact ⟨_, .quotes hbody, by simp⟩
  · rintro ⟨-, @⟨body, ps, hbody⟩, heq⟩
    have htext : gs = body ++ .char '"' :: rest := by simpa using heq
    rw [readText?, htext, hbody.read]
    rfl

/-! ## What follows a value -/

/-- Whether glyphs do not go on with a character of a kind. -/
def Stops (p : Char → Bool) (gs : List Glyph) : Prop := ∀ c, gs.head? = some (.char c) → p c = false

/-- The characters that end a value. -/
def ends : List Char := [' ', '\t', '\n', '\r', ',', ']', '\x7d']

/-- Whether glyphs can stand behind a value: there are none, or the first ends a value. -/
def Ends (gs : List Glyph) : Prop := ∀ g ∈ gs.head?, ∃ c ∈ ends, g = .char c

/-- Where a value ends, no character goes on that is not one of the ends. -/
theorem Ends.stops {p : Char → Bool} (h : Ends gs) (hp : ends.all (!p ·) = true) : Stops p gs := by
  intro c hc
  obtain ⟨d, hd, heq⟩ := h _ hc
  obtain rfl := Glyph.char.inj heq
  simpa using List.all_eq_true.mp hp c hd

/-- Space is one of the marks that end a value. -/
theorem exists_end {g : Glyph} (h : g.any isSpace = true) : ∃ c ∈ ends, g = .char c := by
  cases g with
  | half n => exact absurd h Bool.false_ne_true
  | char c =>
    refine ⟨c, ?_, rfl⟩
    simp only [Glyph.any, isSpace, Bool.or_eq_true, beq_iff_eq] at h
    simp only [ends, List.mem_cons]
    tauto

/-- Space ends a value. -/
theorem Ends.of_spacing (h : IsSpacing gs) : Ends gs :=
  fun _ hg => exists_end (h _ (List.mem_of_mem_head? hg))

/-- A mark that ends a value may have space before it. -/
theorem Ends.append {mark : Char} (hspace : IsSpacing front) (hmark : mark ∈ ends) (rest : List Glyph) :
    Ends (front ++ .char mark :: rest) := by
  cases front with
  | nil => exact fun g hg => ⟨mark, hmark, (Option.some.inj hg).symm⟩
  | cons g front =>
    intro g' hg'
    obtain rfl := Option.some.inj hg'
    exact exists_end (hspace g List.mem_cons_self)

/-! ## Numbers -/

/-- Digits are taken from the front. -/
theorem glyphs_takeDigits (gs : List Glyph) : gs = glyphs (takeDigits gs).1 ++ (takeDigits gs).2 := by
  induction gs with
  | nil => rfl
  | cons g gs ih =>
    cases g with
    | half n => rfl
    | char c =>
      unfold takeDigits
      split_ifs with hc
      · rw [Prod.map_fst, Prod.map_snd, glyphs_cons, List.cons_append, id, ← ih]
      · rfl

/-- All digits are taken up to where they stop. -/
theorem takeDigits_append {ds : List Char} {rest : List Glyph}
    (hdigits : ∀ c ∈ ds, Text.isAsciiDigit c = true) (hrest : Stops Text.isAsciiDigit rest) :
    takeDigits (glyphs ds ++ rest) = (ds, rest) := by
  induction ds with
  | nil =>
    cases rest with
    | nil => rfl
    | cons g rest =>
      cases g with
      | half n => rfl
      | char c => simp [takeDigits, hrest c rfl]
  | cons d ds ih =>
    obtain ⟨hd, hds⟩ := List.forall_mem_cons.mp hdigits
    simp [takeDigits, hd, ih hds]

/-- What is taken as a whole number is written as one. -/
theorem exists_isWhole {ds : List Char} (h : takeWhole? gs = some (ds, rest)) :
    IsWhole ds ∧ gs = glyphs ds ++ rest := by
  obtain ⟨hne, hdigits⟩ := takeWhole?_spec h
  unfold takeWhole? at h
  split at h
  · obtain ⟨rfl, rfl⟩ := Prod.mk.inj (Option.some.inj h)
    exact ⟨⟨hdigits, .inl rfl⟩, rfl⟩
  · rename_i hzero
    dsimp only at h
    split_ifs at h
    obtain ⟨rfl, rfl⟩ := Prod.mk.inj (Option.some.inj h)
    have htext := glyphs_takeDigits gs
    refine ⟨⟨hdigits, .inr ⟨hne, fun hhead => ?_⟩⟩, htext⟩
    obtain ⟨tail, htail⟩ := List.head?_eq_some_iff.mp hhead
    rw [htail] at htext
    exact hzero _ htext

/-- A whole number is taken up to where its digits stop. -/
theorem IsWhole.take {ds : List Char} (h : IsWhole ds) (hrest : Stops Text.isAsciiDigit rest) :
    takeWhole? (glyphs ds ++ rest) = some (ds, rest) := by
  obtain rfl | ⟨hne, hzero⟩ := h.leading
  · rfl
  · unfold takeWhole?
    split
    · rename_i behind hstart
      obtain ⟨d, ds, rfl⟩ := List.exists_cons_of_ne_nil hne
      rw [glyphs_cons, List.cons_append] at hstart
      obtain rfl := Glyph.char.inj (List.cons.inj hstart).1
      exact absurd rfl hzero
    · simp [takeDigits_append h.digits hrest, hne]

/-- What is taken as a fraction is written as one. -/
theorem exists_fractionText (gs : List Glyph) :
    ∃ front, FractionText front (takeFraction gs).1 ∧ gs = front ++ (takeFraction gs).2 := by
  unfold takeFraction
  split
  · rename_i behind
    dsimp only
    split_ifs with hempty
    · exact ⟨[], .none, rfl⟩
    · refine ⟨_, .digits (by simpa using hempty) (takeDigits_spec behind), ?_⟩
      rw [List.cons_append, ← glyphs_takeDigits]
  · exact ⟨[], .none, rfl⟩

/-- A fraction is taken up to where its digits stop. -/
theorem FractionText.take {ds : List Char} (h : FractionText front ds)
    (hdigit : Stops Text.isAsciiDigit rest) (hpoint : Stops (· == '.') rest) :
    takeFraction (front ++ rest) = (ds, rest) := by
  cases h with
  | none =>
    rw [List.nil_append]
    unfold takeFraction
    split
    · exact absurd (hpoint '.' rfl) (by decide)
    · rfl
  | digits hne hdigits => simp [takeFraction, takeDigits_append hdigits hdigit, hne]

/-- What is taken as a sign is written as one. -/
theorem exists_signText (gs : List Glyph) :
    ∃ front, SignText front (takeSign gs).1 ∧ gs = front ++ (takeSign gs).2 := by
  unfold takeSign
  split
  · exact ⟨_, .minus, rfl⟩
  · exact ⟨_, .plus, rfl⟩
  · exact ⟨_, .none, rfl⟩

/-- A sign is taken from before a digit. -/
theorem SignText.take (h : SignText front negative) {d : Char} (hd : Text.isAsciiDigit d = true)
    (tail : List Glyph) : takeSign (front ++ .char d :: tail) = (negative, .char d :: tail) := by
  cases h with
  | plus => rfl
  | minus => rfl
  | none =>
    rw [List.nil_append]
    unfold takeSign
    split
    · rename_i heq
      obtain rfl := Glyph.char.inj (List.cons.inj heq).1
      exact absurd hd (by decide)
    · rename_i heq
      obtain rfl := Glyph.char.inj (List.cons.inj heq).1
      exact absurd hd (by decide)
    · rfl

/-- What is taken as an exponent is written as one. -/
theorem exists_exponentText (gs : List Glyph) :
    ∃ front, ExponentText front (takeExponent gs).1 ∧ gs = front ++ (takeExponent gs).2 := by
  unfold takeExponent
  split
  · rename_i c behind
    dsimp only
    split_ifs with hmark hempty
    · exact ⟨[], .none, rfl⟩
    · obtain ⟨sign, hsign, hbehind⟩ := exists_signText behind
      refine ⟨_, .digits (by simpa using hmark) hsign (by simpa using hempty) (takeDigits_spec _), ?_⟩
      rw [List.cons_append, List.append_assoc, ← glyphs_takeDigits, ← hbehind]
    · exact ⟨[], .none, rfl⟩
  · exact ⟨[], .none, rfl⟩

/-- An exponent is taken up to where its digits stop. -/
theorem ExponentText.take {exponent : Option Int} (h : ExponentText front exponent)
    (hdigit : Stops Text.isAsciiDigit rest) (hmark : Stops (fun c => c == 'e' || c == 'E') rest) :
    takeExponent (front ++ rest) = (exponent, rest) := by
  cases h with
  | none =>
    rw [List.nil_append]
    unfold takeExponent
    split
    · rename_i c behind
      rw [if_neg (Bool.eq_false_iff.mp (hmark c rfl))]
    · rfl
  | @digits mark sign negative ds hmark' hsign hne hdigits =>
    obtain ⟨d, ds, rfl⟩ := List.exists_cons_of_ne_nil hne
    have htake := hsign.take (hdigits d List.mem_cons_self) (glyphs ds ++ rest)
    rw [← List.cons_append, ← glyphs_cons] at htake
    have hread := takeDigits_append hdigits hdigit
    rw [List.cons_append, List.append_assoc, takeExponent, if_pos (by simpa using hmark'), htake]
    dsimp only
    rw [hread]
    rfl

/-- What may follow the digits of a fraction. -/
theorem ExponentText.stops {exponent : Option Int} (h : ExponentText front exponent) {p : Char → Bool}
    (hmark : p 'e' = false ∧ p 'E' = false) (hrest : Stops p rest) : Stops p (front ++ rest) := by
  cases h with
  | none => exact hrest
  | digits hmark' _ _ _ =>
    intro c hc
    obtain rfl := Glyph.char.inj (Option.some.inj hc)
    obtain rfl | rfl := hmark'
    · exact hmark.1
    · exact hmark.2

/-- What may follow the digits in front of a fraction. -/
theorem FractionText.stops {ds : List Char} (h : FractionText front ds) {p : Char → Bool}
    (hpoint : p '.' = false) (hrest : Stops p rest) : Stops p (front ++ rest) := by
  cases h with
  | none => exact hrest
  | digits =>
    intro c hc
    obtain rfl := Glyph.char.inj (Option.some.inj hc)
    exact hpoint

/-- What is read as a number is written as one. -/
theorem exists_numberText {j : Tree} (h : readNumber? negative gs = some (j, rest)) :
    ∃ front, NumberText negative front j ∧ gs = front ++ rest := by
  obtain ⟨⟨whole, behind⟩, htake, hnumber⟩ := Option.bind_eq_some_iff.mp h
  obtain ⟨hwhole, rfl⟩ := exists_isWhole htake
  obtain ⟨point, hfraction, hbehind⟩ := exists_fractionText behind
  obtain ⟨power, hexponent, hpower⟩ := exists_exponentText (takeFraction behind).2
  dsimp only at hnumber
  split_ifs at hnumber with hexact hlong
  · obtain ⟨rfl, rfl⟩ := Prod.mk.inj (Option.some.inj hnumber)
    obtain ⟨hnone, hnone'⟩ : (takeFraction behind).1 = [] ∧
        (takeExponent (takeFraction behind).2).1 = none := by simpa using hexact
    rw [hnone] at hfraction
    rw [hnone'] at hexponent
    refine ⟨_, .int hwhole (Nat.not_lt.mp hlong), ?_⟩
    cases hfraction with
    | digits hne => exact absurd rfl hne
    | none =>
      cases hexponent with
      | none =>
        rw [List.nil_append] at hbehind hpower
        rw [← hpower, ← hbehind]
  · obtain ⟨rfl, rfl⟩ := Prod.mk.inj (Option.some.inj hnumber)
    have hreal : (takeFraction behind).1 ≠ [] ∨ (takeExponent (takeFraction behind).2).1 ≠ none := by
      by_contra hnot
      rw [not_or, not_not, not_not] at hnot
      simp [hnot] at hexact
    refine ⟨_, .real hwhole hfraction hexponent hreal, ?_⟩
    rw [List.append_assoc, List.append_assoc, ← hpower, ← hbehind]

/-- A number is read where something ends it. -/
theorem NumberText.read {j : Tree} (h : NumberText negative front j) (hrest : Ends rest) :
    readNumber? negative (front ++ rest) = some (j, rest) := by
  have hdigit : Stops Text.isAsciiDigit rest := hrest.stops (by decide)
  have hpoint : Stops (· == '.') rest := hrest.stops (by decide)
  have hmark : Stops (fun c => c == 'e' || c == 'E') rest := hrest.stops (by decide)
  cases h with
  | @int ds hwhole hshort =>
    have hfraction := FractionText.none.take hdigit hpoint
    have hexponent := ExponentText.none.take hdigit hmark
    rw [List.nil_append] at hfraction hexponent
    simp [readNumber?, hwhole.take hdigit, hfraction, hexponent, Nat.not_lt.mpr hshort]
  | @real whole fraction exponent point power hwhole hfraction hexponent hreal =>
    have hpower : Stops Text.isAsciiDigit (power ++ rest) := hexponent.stops (by decide) hdigit
    have hwhole' := hwhole.take (hfraction.stops (by decide) hpower)
    have hfraction' := hfraction.take hpower (hexponent.stops (by decide) hpoint)
    have hexponent' := hexponent.take hdigit hmark
    have hnot : ¬(fraction.isEmpty && exponent.isNone) = true := by
      simpa [or_iff_not_imp_left] using hreal
    rw [List.append_assoc, List.append_assoc]
    simp only [readNumber?, hwhole', hfraction', hexponent', if_neg hnot, bind, Option.bind, pure]

/-! ## Words -/

/-- A word is taken exactly if it stands at the front. -/
theorem takeWord?_eq_some_iff {w : List Char} :
    takeWord? w gs = some rest ↔ gs = glyphs w ++ rest := by
  induction w generalizing gs with
  | nil => simp [takeWord?]
  | cons c w ih =>
    cases gs with
    | nil => simp [takeWord?]
    | cons g gs =>
      by_cases hg : g = .char c
      · simp [takeWord?, hg, ih]
      · simp [takeWord?, hg]

/-- What is read as a value that is neither text nor container is one. -/
theorem exists_scalarText {j : Tree} (h : readScalar? gs = some (j, rest)) :
    ∃ front, ScalarText front j ∧ gs = front ++ rest := by
  have hname {word : String} {v : Tree} (hnamed : (word, v) ∈ named)
      (h : (takeWord? word.toList gs).map (v, ·) = some (j, rest)) :
      ∃ front, ScalarText front j ∧ gs = front ++ rest := by
    obtain ⟨behind, hword, heq⟩ := Option.map_eq_some_iff.mp h
    obtain ⟨rfl, rfl⟩ := Prod.mk.inj heq
    exact ⟨_, .name hnamed, takeWord?_eq_some_iff.mp hword⟩
  unfold readScalar? at h
  split at h
  · exact hname (by simp [named]) h
  · exact hname (by simp [named]) h
  · exact hname (by simp [named]) h
  · exact hname (by simp [named]) h
  · exact hname (by simp [named]) h
  · exact hname (by simp [named]) h
  · obtain ⟨front, hnumber, rfl⟩ := exists_numberText h
    exact ⟨_, .negative hnumber, rfl⟩
  · obtain ⟨front, hnumber, rfl⟩ := exists_numberText h
    exact ⟨_, .positive hnumber, rfl⟩

/-- What begins with a digit is read as a number. -/
theorem readScalar?_of_digit {d : Char} (hd : Text.isAsciiDigit d = true) (gs : List Glyph) :
    readScalar? (.char d :: gs) = readNumber? false (.char d :: gs) := by
  unfold readScalar?
  split <;> rename_i h
  case h_8 => rfl
  all_goals
    obtain rfl := Glyph.char.inj (List.cons.inj h).1
    exact absurd hd (by decide)

/-- What begins with a minus and a digit is read as a negative number. -/
theorem readScalar?_minus {d : Char} (hd : Text.isAsciiDigit d = true) (gs : List Glyph) :
    readScalar? (.char '-' :: .char d :: gs) = readNumber? true (.char d :: gs) := by
  have hne : d ≠ 'I' := by
    rintro rfl
    exact absurd hd (by decide)
  unfold readScalar?
  split <;> simp_all

/-- A number starts with a digit. -/
theorem NumberText.exists_digit {j : Tree} (h : NumberText negative front j) :
    ∃ d tail, Text.isAsciiDigit d = true ∧ front = .char d :: tail := by
  have hstart {ds : List Char} (h : IsWhole ds) :
      ∃ d ds', Text.isAsciiDigit d = true ∧ ds = d :: ds' := by
    cases ds with
    | nil => exact absurd h.leading (by simp)
    | cons d ds => exact ⟨d, ds, h.digits d List.mem_cons_self, rfl⟩
  cases h with
  | int hwhole =>
    obtain ⟨d, ds, hd, rfl⟩ := hstart hwhole
    exact ⟨d, _, hd, rfl⟩
  | real hwhole =>
    obtain ⟨d, ds, hd, rfl⟩ := hstart hwhole
    exact ⟨d, _, hd, rfl⟩

/-- A value that is neither text nor container is read in front of what can stand behind it. -/
theorem ScalarText.read {j : Tree} (h : ScalarText front j) (hrest : Ends rest) :
    readScalar? (front ++ rest) = some (j, rest) := by
  cases h with
  | @name word _ h =>
    have hword : (takeWord? word.toList (glyphs word.toList ++ rest)).map (j, ·) = some (j, rest) := by
      rw [takeWord?_eq_some_iff.mpr rfl]
      rfl
    simp only [named, List.mem_cons, Prod.mk.injEq, List.not_mem_nil, or_false] at h
    obtain ⟨rfl, rfl⟩ | ⟨rfl, rfl⟩ | ⟨rfl, rfl⟩ | ⟨rfl, rfl⟩ | ⟨rfl, rfl⟩ | ⟨rfl, rfl⟩ := h <;> exact hword
  | positive h =>
    have hread := h.read hrest
    obtain ⟨d, tail, hd, rfl⟩ := h.exists_digit
    rw [List.cons_append] at hread ⊢
    rw [readScalar?_of_digit hd, hread]
  | negative h =>
    have hread := h.read hrest
    obtain ⟨d, tail, hd, rfl⟩ := h.exists_digit
    rw [List.cons_append] at hread ⊢
    rw [List.cons_append, readScalar?_minus hd, hread]

end Quarry.Json
