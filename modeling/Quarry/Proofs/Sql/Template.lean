import Quarry.Proofs.Sql.ClauseText

/-!
# Texts of statements as templates

The driver of a MySQL server takes the text of a statement for a template: it puts the parameters,
written as literals, where `%s` stands, reads `%%` as a percent sign, and knows nothing of names in
quotes. A text does as a template if all of its percent signs begin placeholders. Then formatting
puts every parameter to its own placeholder (`format_eq_some_fill`).

Every placeholder begins with a percent sign, so the places of the one are among those of the other,
and it is enough to count them. Fixed words have no percent sign and a slot has one; what is left
are the percent signs of the names. So the text of a fragment does exactly if no name in it has a
percent sign (`isTemplate_iff`).
-/

set_option autoImplicit false

namespace Quarry.Sql

/-! ## Templates -/

/-- The places in a text at which percent signs stand, the first character of the text being at
`i`. -/
def percentsFrom : Nat → List Char → List Nat
  | _, [] => []
  | i, c :: cs => if c = '%' then i :: percentsFrom (i + 1) cs else percentsFrom (i + 1) cs

/-- The places in a text at which percent signs stand. -/
def percents (text : String) : List Nat := percentsFrom 0 text.toList

/-- A template with values put into it: `%s` takes the next value, `%%` is a percent sign, and no
value may be missing or left over. Other directives, which only names could hold, are not
followed. -/
def format : List Char → List (List Char) → Option (List Char)
  | [], [] => some []
  | [], _ :: _ => none
  | '%' :: 's' :: cs, v :: vs => (format cs vs).map (v ++ ·)
  | '%' :: '%' :: cs, vs => (format cs vs).map ('%' :: ·)
  | '%' :: _, _ => none
  | c :: cs, vs => (format cs vs).map (c :: ·)

/-- Whether a text stands in a name behind a character. -/
def afterQuote (inName : Bool) (c : Char) : Bool :=
  if c = Dialect.mysql.quote then !inName else inName

/-- A text with values in the place of its placeholders. What stands in a name stays as it is. -/
def fill : Bool → List Char → List (List Char) → List Char
  | _, [], _ => []
  | false, '%' :: 's' :: cs, v :: vs => v ++ fill false cs vs
  | inName, c :: cs, vs => c :: fill (afterQuote inName c) cs vs

/-- The text of a statement does as a template: its percent signs are those of its placeholders, and
formatting puts each parameter, however parameters are written, to its placeholder. -/
structure IsTemplate (st : Statement) : Prop where
  percents : percents st.sql = places .mysql st.sql
  formatted : ∀ write : Value → List Char, format st.sql.toList (st.params.map write)
    = some (fill false st.sql.toList (st.params.map write))

/-! ## Percent signs and placeholders -/

/-- There are as many places of percent signs as percent signs. -/
theorem length_percentsFrom (i : Nat) (cs : List Char) :
    (percentsFrom i cs).length = cs.count '%' := by
  induction cs generalizing i with
  | nil => rfl
  | cons c cs ih =>
    rw [percentsFrom, List.count_cons]
    by_cases hc : c = '%'
    · simp [hc, ih]
    · simp [hc, ih]

/-- A placeholder is a percent sign and an s. -/
theorem placeholder_isPrefixOf {cs : List Char} :
    Dialect.mysql.placeholder.toList.isPrefixOf cs = true ↔ ∃ rest, cs = '%' :: 's' :: rest := by
  have hplaceholder : Dialect.mysql.placeholder.toList = ['%', 's'] := rfl
  rw [hplaceholder, List.isPrefixOf_iff_prefix]
  constructor
  · rintro ⟨rest, rfl⟩
    exact ⟨rest, rfl⟩
  · rintro ⟨rest, rfl⟩
    exact ⟨rest, rfl⟩

/-- Placeholders are found where percent signs are. -/
theorem placesFrom_sublist_percentsFrom (inName : Bool) (i : Nat) (cs : List Char) :
    (placesFrom .mysql inName i cs).Sublist (percentsFrom i cs) := by
  induction cs generalizing inName i with
  | nil => exact List.Sublist.refl _
  | cons c cs ih =>
    have hskip : ∀ inName, (placesFrom .mysql inName (i + 1) cs).Sublist (percentsFrom i (c :: cs)) := by
      intro inName
      rw [percentsFrom]
      split
      · exact (ih inName (i + 1)).cons _
      · exact ih inName (i + 1)
    rw [placesFrom]
    split
    next => exact hskip _
    next =>
      split
      next hplaceholder =>
        rw [Bool.and_eq_true, placeholder_isPrefixOf] at hplaceholder
        obtain ⟨-, rest, hcs⟩ := hplaceholder
        rw [percentsFrom, if_pos (List.cons.inj hcs).1]
        exact (ih inName (i + 1)).cons_cons _
      next => exact hskip _

/-- Places are counted from the first one. -/
theorem le_of_mem_percentsFrom {i p : Nat} {cs : List Char} (h : p ∈ percentsFrom i cs) : i ≤ p := by
  induction cs generalizing i with
  | nil => simp [percentsFrom] at h
  | cons c cs ih =>
    rw [percentsFrom] at h
    split at h
    · rcases List.mem_cons.mp h with rfl | h
      · exact Nat.le_refl _
      · exact Nat.le_of_succ_le (ih h)
    · exact Nat.le_of_succ_le (ih h)

/-- Where all percent signs begin placeholders, a percent sign begins one. -/
theorem placeholder_of_percent {inName : Bool} {i : Nat} {cs : List Char}
    (h : percentsFrom i ('%' :: cs) = placesFrom .mysql inName i ('%' :: cs)) :
    inName = false ∧ ∃ rest, cs = 's' :: rest ∧
      percentsFrom (i + 2) rest = placesFrom .mysql false (i + 2) rest ∧
      placesFrom .mysql false i ('%' :: cs) = i :: placesFrom .mysql false (i + 2) rest := by
  have hquote : ('%' : Char) ≠ Dialect.mysql.quote := by decide
  rw [percentsFrom, if_pos rfl, placesFrom, if_neg hquote] at h
  split at h
  next hplaceholder =>
    rw [Bool.and_eq_true, Bool.not_eq_true', placeholder_isPrefixOf] at hplaceholder
    obtain ⟨rfl, rest, hcs⟩ := hplaceholder
    obtain rfl := (List.cons.inj hcs).2
    have hrest := (List.cons.inj h).2
    refine ⟨rfl, rest, rfl, ?_, ?_⟩
    · simpa [percentsFrom, placesFrom, Dialect.quote, Dialect.placeholder] using hrest
    · simp [placesFrom, Dialect.quote, Dialect.placeholder]
  next =>
    -- The place of the percent sign would have to be found behind it.
    have hmem : i ∈ placesFrom .mysql inName (i + 1) cs := h ▸ List.mem_cons_self
    have := le_of_mem_percentsFrom ((placesFrom_sublist_percentsFrom _ _ _).subset hmem)
    omega

/-- A character that is no percent sign is no place. -/
theorem placesFrom_cons_of_ne {c : Char} (hc : c ≠ '%') (inName : Bool) (i : Nat) (cs : List Char) :
    placesFrom .mysql inName i (c :: cs) = placesFrom .mysql (afterQuote inName c) (i + 1) cs := by
  have hplaceholder : Dialect.mysql.placeholder.toList.isPrefixOf (c :: cs) = false := by
    rw [← Bool.not_eq_true, placeholder_isPrefixOf]
    rintro ⟨rest, hcs⟩
    exact hc (List.cons.inj hcs).1
  rw [placesFrom, hplaceholder, Bool.and_false, afterQuote]
  by_cases hquote : c = Dialect.mysql.quote
  · rw [if_pos hquote, if_pos hquote]
  · rw [if_neg hquote, if_neg hquote]
    rfl

/-- Where all percent signs begin placeholders, formatting puts the values to the placeholders. -/
theorem format_eq_some_fill {inName : Bool} {i : Nat} {cs : List Char} {vs : List (List Char)}
    (h : percentsFrom i cs = placesFrom .mysql inName i cs)
    (hlength : (placesFrom .mysql inName i cs).length = vs.length) :
    format cs vs = some (fill inName cs vs) := by
  induction cs, vs using format.induct generalizing inName i with
  | case1 => cases inName <;> rfl
  | case2 v vs => simp [placesFrom] at hlength
  | case3 cs v vs ih =>
    obtain ⟨rfl, rest, hcs, hrest, hplaces⟩ := placeholder_of_percent h
    obtain rfl := (List.cons.inj hcs).2
    rw [hplaces] at hlength
    rw [format, fill, ih hrest (by simpa using hlength)]
    rfl
  | case4 cs vs ih =>
    -- A doubled sign begins no placeholder, and a sign that begins one has its value.
    obtain ⟨-, rest, hcs, -⟩ := placeholder_of_percent h
    exact absurd (List.cons.inj hcs).1 (by decide)
  | case5 cs vs hnot _ =>
    obtain ⟨rfl, rest, rfl, -, hplaces⟩ := placeholder_of_percent h
    rw [hplaces] at hlength
    cases vs with
    | nil => simp at hlength
    | cons v vs => exact absurd rfl (hnot rest v vs rfl)
  | case6 c cs vs _ _ hc ih =>
    rw [placesFrom_cons_of_ne hc] at h hlength
    rw [percentsFrom, if_neg hc] at h
    have hformat : format (c :: cs) vs = (format cs vs).map (c :: ·) := by
      rw [format.eq_def]
      split <;> simp_all
    have hfill : fill inName (c :: cs) vs = c :: fill (afterQuote inName c) cs vs := by
      rw [fill.eq_def]
      split <;> simp_all
    rw [hformat, hfill, ih h hlength]
    rfl

/-! ## Names -/

namespace Piece

/-- The name that a piece prints. -/
def name? : Piece → Option String
  | .name n => some n
  | _ => none

end Piece

/-- A name that formatting leaves as it is. -/
def IsPlainName (name : String) : Prop := '%' ∉ name.toList

/-- Whether a name is plain can be computed. -/
instance (name : String) : Decidable (IsPlainName name) := inferInstanceAs (Decidable (¬ _))

namespace Fragment

/-- The names that a fragment prints. -/
def names (f : Fragment) : List String := f.filterMap Piece.name?

/-- No name in a fragment has a percent sign. -/
def HasPlainNames (f : Fragment) : Prop := ∀ n ∈ names f, IsPlainName n

/-- Whether a fragment has plain names can be computed. -/
instance (f : Fragment) : Decidable f.HasPlainNames :=
  inferInstanceAs (Decidable (∀ n ∈ names f, IsPlainName n))

/-- Nothing has no names. -/
@[simp] theorem names_nil : names [] = [] := rfl

/-- A word is no name. -/
@[simp] theorem names_word (t : String) (f : Fragment) : names (.word t :: f) = names f := rfl

/-- A name comes before the others. -/
@[simp] theorem names_name (n : String) (f : Fragment) : names (.name n :: f) = n :: names f := rfl

/-- A slot is no name. -/
@[simp] theorem names_slot (v : Value) (f : Fragment) : names (.slot v :: f) = names f := rfl

/-- The names of fragments one after the other. -/
@[simp] theorem names_append (f g : Fragment) : names (f ++ g) = names f ++ names g := by
  simp [names]

/-- A separator that is a word adds no names. -/
theorem names_joined (separator : String) (fs : List Fragment) :
    names (joined separator fs) = fs.flatMap names := by
  induction fs with
  | nil => rfl
  | cons f rest ih =>
    cases rest with
    | nil => simp [joined]
    | cons g rest => simp [Grammar.joined_cons_cons, ih]

/-- Parentheses add no names. -/
@[simp] theorem names_parenthesized (f : Fragment) : names f.parenthesized = names f := by
  simp [parenthesized]

end Fragment

/-- Doubling quotes adds no percent sign. -/
theorem count_percent_doubleQuotes (n : List Char) :
    (Dialect.doubleQuotes Dialect.mysql.quote n).count '%' = n.count '%' := by
  have hquote : (Dialect.mysql.quote == '%') = false := rfl
  induction n with
  | nil => rfl
  | cons c n ih =>
    rw [Dialect.doubleQuotes]
    split
    next hc => simp [hc, List.count_cons, ih, hquote]
    next => rw [List.count_cons, List.count_cons, ih]

/-- Quoting adds no percent sign. -/
theorem count_percent_quoteChars (n : List Char) :
    (Dialect.mysql.quoteChars n).count '%' = n.count '%' := by
  have hquote : (Dialect.mysql.quote == '%') = false := rfl
  simp [Dialect.quoteChars, List.count_cons, count_percent_doubleQuotes, hquote]

/-- A tame word has no percent sign. -/
theorem count_percent_word {t : String} (h : (Piece.word t).isTame = true) : t.toList.count '%' = 0 := by
  rw [List.count_eq_zero]
  intro hmem
  exact absurd (List.all_eq_true.mp h '%' hmem) (by decide)

/-- A fragment has the percent signs of its slots and those of its names. -/
theorem Fragment.count_percent {f : Fragment} (h : f.isTame = true) :
    (chars .mysql f).count '%' = f.params.length + (f.names.map fun n => n.toList.count '%').sum := by
  induction f with
  | nil => rfl
  | cons p f ih =>
    rw [isTame_cons, Bool.and_eq_true] at h
    have hchars : chars .mysql (p :: f) = p.chars .mysql ++ chars .mysql f := rfl
    rw [hchars, List.count_append, ih h.2]
    cases p with
    | word t => simp [Piece.chars, count_percent_word h.1]
    | name n =>
      simp only [Piece.chars, count_percent_quoteChars, params_name, names_name, List.map_cons,
        List.sum_cons]
      omega
    | slot v =>
      have hslot : Dialect.mysql.placeholder.toList.count '%' = 1 := rfl
      simp only [Piece.chars, hslot, params_slot, names_slot, List.length_cons]
      omega
    | raw t => simp [Piece.isTame] at h

/-- The text of a fragment does as a template exactly if its names have no percent signs. -/
theorem isTemplate_iff {f : Fragment} (h : f.isTame = true) :
    IsTemplate (f.statement .mysql) ↔ f.HasPlainNames := by
  have hplaces : (places .mysql (Fragment.sql .mysql f)).length = f.params.length := by
    obtain ⟨inside, hlength, -, hall⟩ := Fragment.holds (d := .mysql) h
    rw [places, Fragment.sql, String.toList_ofList, ← hlength]
    simpa [placesFrom] using congrArg List.length (hall 0 [])
  have hpercents : percents (Fragment.sql .mysql f) = places .mysql (Fragment.sql .mysql f) ↔
      f.HasPlainNames := by
    calc percents (Fragment.sql .mysql f) = places .mysql (Fragment.sql .mysql f)
        ↔ (percents (Fragment.sql .mysql f)).length = (places .mysql (Fragment.sql .mysql f)).length :=
          ⟨congrArg List.length, fun hlength =>
            ((placesFrom_sublist_percentsFrom _ _ _).eq_of_length hlength.symm).symm⟩
      _ ↔ (f.names.map fun n => n.toList.count '%').sum = 0 := by
          rw [percents, Fragment.sql, String.toList_ofList, length_percentsFrom, Fragment.count_percent h,
            ← Fragment.sql, hplaces]
          omega
      _ ↔ f.HasPlainNames := by
          simp [List.sum_eq_zero_iff_forall_eq_nat, Fragment.HasPlainNames, IsPlainName, List.count_eq_zero]
  refine ⟨fun htemplate => hpercents.mp htemplate.percents, fun hplain => ?_⟩
  have hsame := hpercents.mpr hplain
  refine ⟨hsame, fun write => format_eq_some_fill hsame ?_⟩
  rw [List.length_map]
  exact hplaces

end Quarry.Sql
