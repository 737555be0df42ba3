import Quarry.Proofs.Sql.Grammar

/-!
# Joining and cutting

Fragments are joined by words such as AND, OR and commas, and the grammar cuts rows of items at
them. Here are the laws of both, for any parts: what is joined is read as the joined tokens,
parentheses are matched part by part, and a row is cut exactly where it was joined when no part has
the separator outside of its own parentheses.
-/

set_option autoImplicit false

namespace Quarry.Sql.Grammar

variable {α : Type} {d : Dialect}

/-! ## Fragments -/

/-- Nothing has no text. -/
@[simp] theorem chars_nil : Fragment.chars d [] = [] := rfl

/-- The text goes piece by piece. -/
@[simp] theorem chars_cons (p : Piece) (f : Fragment) :
    Fragment.chars d (p :: f) = p.chars d ++ Fragment.chars d f := by
  simp [Fragment.chars]

/-- The text of fragments one after the other. -/
@[simp] theorem chars_append (f g : Fragment) :
    Fragment.chars d (f ++ g) = Fragment.chars d f ++ Fragment.chars d g := by
  simp [Fragment.chars]

/-- The text in parentheses. -/
@[simp] theorem chars_parenthesized (f : Fragment) :
    Fragment.chars d f.parenthesized = '(' :: (Fragment.chars d f ++ [')']) := by
  simp [Fragment.parenthesized, Piece.chars]

/-- Between two fragments there is the separator. -/
theorem joined_cons_cons (separator : String) (f g : Fragment) (rest : List Fragment) :
    Fragment.joined separator (f :: g :: rest) =
      f ++ .word separator :: Fragment.joined separator (g :: rest) := rfl

/-- A word that begins with a blank or a comma and leaves the lexer between tokens, and is one
token. -/
structure Separates (d : Dialect) (separator : String) (t : Token) : Prop where
  breaks : ∃ c cs, separator.toList = c :: cs ∧ isBreak c = true
  closes : Closes d separator.toList [t]

/-- The word that separates members of a conjunction. -/
theorem separates_and : Separates d " AND " (.word "AND") :=
  ⟨⟨' ', "AND ".toList, rfl, rfl⟩, by cases d <;> rfl⟩

/-- The word that separates members of a disjunction. -/
theorem separates_or : Separates d " OR " (.word "OR") :=
  ⟨⟨' ', "OR ".toList, rfl, rfl⟩, by cases d <;> rfl⟩

/-- The comma that separates members of a list. -/
theorem separates_comma : Separates d ", " (.mark ',') :=
  ⟨⟨',', [' '], rfl, rfl⟩, by cases d <;> rfl⟩

/-- Joined fragments are read as their tokens with the separator's between them. -/
theorem reads_joined {separator : String} {t : Token} (hsep : Separates d separator t)
    (frag : α → Fragment) (toks : α → List Token) (xs : List α) (hne : xs ≠ [])
    (h : ∀ x ∈ xs, Reads d (Fragment.chars d (frag x)) (toks x)) :
    Reads d (Fragment.chars d (Fragment.joined separator (xs.map frag)))
      ([t].intercalate (xs.map toks)) := by
  induction xs with
  | nil => exact absurd rfl hne
  | cons x rest ih =>
    cases rest with
    | nil => simpa [Fragment.joined] using h x (by simp)
    | cons y rest =>
      have hx := h x (by simp)
      have hrest := ih (by simp) fun z hz => h z (List.mem_cons_of_mem x hz)
      obtain ⟨c, cs, hchars, hbreak⟩ := hsep.breaks
      have hlater := hsep.closes.append_reads hrest
      rw [hchars] at hlater
      simpa [joined_cons_cons, Piece.chars, hchars, List.intercalate_cons_cons] using
        hx.append hbreak hlater

/-! ## Parentheses -/

/-- With these tokens the innermost open pair of parentheses gets these items. -/
def Brackets (ts : List Token) (items : List Item) : Prop :=
  ∀ before below rest,
    bracket (before :: below) (ts ++ rest) = bracket ((before ++ items) :: below) rest

/-- Nothing is in brackets. -/
theorem brackets_nil : Brackets [] [] := by
  intro before below rest
  simp

/-- Items one after the other. -/
theorem Brackets.append {ts us : List Token} {items others : List Item} (h : Brackets ts items)
    (h' : Brackets us others) : Brackets (ts ++ us) (items ++ others) := by
  intro before below rest
  rw [List.append_assoc, h, h', List.append_assoc]

/-- A token that is no bracket is an item. -/
theorem brackets_token {t : Token} (hopen : t ≠ .mark '(') (hclose : t ≠ .mark ')') :
    Brackets [t] [.token t] := by
  intro before below rest
  cases below <;> simp [bracket, hclose]

/-- Tokens that are no brackets are items. -/
theorem brackets_tokens {ts : List Token} (h : ∀ t ∈ ts, t ≠ .mark '(' ∧ t ≠ .mark ')') :
    Brackets ts (ts.map .token) := by
  induction ts with
  | nil => exact brackets_nil
  | cons t ts ih =>
    have ht := h t (by simp)
    exact (brackets_token ht.1 ht.2).append (ih fun u hu => h u (List.mem_cons_of_mem t hu))

/-- What is in brackets is one group. -/
theorem Brackets.group {ts : List Token} {items : List Item} (h : Brackets ts items) :
    Brackets (.mark '(' :: (ts ++ [.mark ')'])) [.group (arguments items) (condition items)] := by
  intro before below rest
  have hinner := h [] (before :: below) (.mark ')' :: rest)
  simp [bracket, hinner]

/-- A word with something in parentheses behind it. -/
theorem Brackets.call {ts : List Token} {items : List Item} (w : String) (h : Brackets ts items) :
    Brackets (.word w :: .mark '(' :: (ts ++ [.mark ')']))
      [.token (.word w), .group (arguments items) (condition items)] :=
  (brackets_token (by simp) (by simp)).append h.group

/-- Items are found among their tokens. -/
theorem Brackets.bracket {ts : List Token} {items : List Item} (h : Brackets ts items) :
    bracket [[]] ts = some items := by
  have := h [] [] []
  simpa [Grammar.bracket] using this

/-- Parentheses in joined tokens are matched part by part. -/
theorem brackets_joined {t : Token} (hopen : t ≠ .mark '(') (hclose : t ≠ .mark ')')
    (toks : α → List Token) (items : α → List Item) (xs : List α)
    (h : ∀ x ∈ xs, Brackets (toks x) (items x)) :
    Brackets ([t].intercalate (xs.map toks)) ([Item.token t].intercalate (xs.map items)) := by
  induction xs with
  | nil => simpa using brackets_nil
  | cons x rest ih =>
    have hx := h x (by simp)
    have hrest := ih fun z hz => h z (List.mem_cons_of_mem x hz)
    cases rest with
    | nil => simpa using hx
    | cons y rest =>
      simpa [List.intercalate_cons_cons] using
        (hx.append (brackets_token hopen hclose)).append hrest

/-! ## Cutting -/

/-- Joined items are cut where they were joined. -/
theorem splitOnP_joined {p : Item → Bool} (sep : Item) (hsep : p sep = true)
    (items : α → List Item) (xs : List α) (hne : xs ≠ [])
    (h : ∀ x ∈ xs, ∀ i ∈ items x, p i = false) :
    ([sep].intercalate (xs.map items)).splitOnP p = xs.map items := by
  induction xs with
  | nil => exact absurd rfl hne
  | cons x rest ih =>
    have hx := h x (by simp)
    have hrest := fun hne => ih hne fun z hz => h z (List.mem_cons_of_mem x hz)
    cases rest with
    | nil => simpa using List.splitOnP_eq_singleton hx
    | cons y rest =>
      have hcut := hrest (by simp)
      simp only [List.map_cons, List.intercalate_cons_cons, List.append_assoc,
        List.singleton_append] at hcut ⊢
      rw [List.splitOnP_append_cons_of_forall_mem hx sep hsep, hcut]

/-- A row of parts is read when every part is. -/
theorem mapM_map_eq_some {β γ : Type} {f : γ → Option β} (items : α → γ)
    (result : α → β) (xs : List α) (h : ∀ x ∈ xs, f (items x) = some (result x)) :
    (xs.map items).mapM f = some (xs.map result) := by
  induction xs with
  | nil => rfl
  | cons x rest ih =>
    simp [h x (by simp), ih fun z hz => h z (List.mem_cons_of_mem x hz)]

/-- What is in joined parts is in a part or is the separator. -/
theorem mem_joined {sep i : α} {parts : List (List α)} (h : i ∈ [sep].intercalate parts) :
    i = sep ∨ ∃ part ∈ parts, i ∈ part := by
  induction parts with
  | nil => simp at h
  | cons part rest ih =>
    cases rest with
    | nil => exact .inr ⟨part, by simp, by simpa using h⟩
    | cons next rest =>
      simp only [List.intercalate_cons_cons, List.append_assoc, List.mem_append,
        List.mem_singleton] at h
      obtain h | h | h := h
      · exact .inr ⟨part, by simp, h⟩
      · exact .inl h
      · obtain h | ⟨p, hp, hi⟩ := ih h
        · exact .inl h
        · exact .inr ⟨p, List.mem_cons_of_mem part hp, hi⟩

/-! ## Tokens as a condition -/

/-- The items that tokens become. -/
def itemsOf (ts : List Token) : List Item := (bracket [[]] ts).getD []

/-- Whether the words that join conditions are missing, but for what stands in parentheses. -/
def Undivided (items : List Item) : Prop :=
  ∀ i ∈ items, i.isWord "AND" = false ∧ i.isWord "OR" = false

/-- Tokens that are one condition, which may be joined to others. -/
structure Parses (ts : List Token) (c : Condition) : Prop where
  brackets : Brackets ts (itemsOf ts)
  factor : factor (itemsOf ts) = some c
  undivided : Undivided (itemsOf ts)

/-- A condition is parsed from tokens that are one factor. -/
theorem Parses.intro {ts : List Token} {items : List Item} {c : Condition} (hb : Brackets ts items)
    (hf : Grammar.factor items = some c) (hu : Undivided items) : Parses ts c := by
  have hitems : itemsOf ts = items := by simp [itemsOf, hb.bracket]
  exact ⟨hitems ▸ hb, hitems ▸ hf, hitems ▸ hu⟩

end Quarry.Sql.Grammar
