import Quarry.Proofs.Sql.Joined

/-!
# Terms read back

A reference to a column is read back as that reference whatever its names contain, placeholders as
placeholders whatever is bound to them, and a number as that number. For each there are the tokens
its text is read as (`tokens`) and the items that these become (`items`).
-/

set_option autoImplicit false

namespace Quarry.Sql

open Grammar (Token Item Term Condition Reads Closes Brackets)

variable {d : Dialect}

/-! ## Columns -/

/-- Only a text is taken for the name of a table. -/
theorem identifier_eq_ok {v : Value} {name : String} (h : identifier v = .ok name) : v = .text name := by
  cases v with
  | text s => exact congrArg Value.text (Except.ok.inj h)
  | _ => simp [identifier, misfit] at h

namespace ColumnRef

/-- The tokens of a reference. -/
def tokens : ColumnRef → List Token
  | .plain c => [.name c]
  | .qualified t c => [.name t, .mark '.', .name c]
  | .star t => [.name t, .mark '.', .mark '*']

/-- The items of a reference. -/
def items (c : ColumnRef) : List Item := c.tokens.map .token

/-- The text of a column is read as its tokens. -/
theorem reads (c : ColumnRef) : Reads d (Fragment.chars d c.fragment) c.tokens := by
  cases c with
  | plain c => simpa [fragment, Piece.chars, tokens] using Grammar.reads_quoteChars c
  | qualified t c =>
    have hdot : Closes d ['.'] [.mark '.'] := by cases d <;> rfl
    have hlast := hdot.append_reads (Grammar.reads_quoteChars c)
    simpa [fragment, Piece.chars, tokens] using
      (Grammar.reads_quoteChars t).append (c := '.') rfl hlast
  | star t =>
    have hlast : Closes d ['.', '*'] [.mark '.', .mark '*'] := by cases d <;> rfl
    simpa [fragment, Piece.chars, tokens] using
      (Grammar.reads_quoteChars t).append (c := '.') rfl hlast.reads

/-- The tokens of a column are its items, without brackets. -/
theorem brackets (c : ColumnRef) : Brackets c.tokens c.items := by
  intro before below rest
  cases c <;> cases below <;> simp [tokens, items, Grammar.bracket]

/-- The items of a column are a term. -/
theorem term_items (c : ColumnRef) : Grammar.term c.items = some (.column c) := by
  cases c <;> rfl

/-- Nothing in a reference is a separator or says how a column is tested. -/
theorem not_word (c : ColumnRef) (w : String) : ∀ i ∈ c.items, i.isWord w = false := by
  cases c <;> simp [items, tokens, Item.isWord]

/-- There is no comma among the items of a column. -/
theorem not_comma (c : ColumnRef) : ∀ i ∈ c.items, i.isComma = false := by
  cases c <;> simp [items, tokens, Item.isComma]

/-- There is no test among the items of a column. -/
theorem not_test (c : ColumnRef) : ∀ i ∈ c.items, i.isTest = false := by
  cases c <;> simp [items, tokens, Item.isTest]

end ColumnRef

/-! ## Placeholders -/

namespace Grammar

/-- The tokens of a number of placeholders. -/
def slotTokens (n : Nat) : List Token :=
  [Token.mark ','].intercalate ((List.replicate n ()).map fun _ => [Token.slot])

/-- The items of a number of placeholders. -/
def slotItems (n : Nat) : List Item :=
  [Item.token (.mark ',')].intercalate ((List.replicate n ()).map fun _ => [Item.token .slot])

/-- Slots are read as such. -/
theorem reads_slots (vs : List Value) (hne : vs ≠ []) :
    Closes d (Fragment.chars d (Fragment.slots vs)) (slotTokens vs.length) := by
  induction vs with
  | nil => exact absurd rfl hne
  | cons v rest ih =>
    have hslot : Closes d d.placeholder.toList [.slot] := by cases d <;> rfl
    cases rest with
    | nil => simpa [Fragment.slots, Fragment.joined, Piece.chars, slotTokens] using hslot
    | cons w rest =>
      have hcomma : Closes d ", ".toList [.mark ','] := separates_comma.closes
      have hrest := (hslot.append hcomma).append (ih (by simp))
      simpa [Fragment.slots, joined_cons_cons, Piece.chars, slotTokens, List.replicate_succ,
        List.intercalate_cons_cons] using hrest

/-- Slots stand in one pair of brackets. -/
theorem brackets_slots (n : Nat) : Brackets (slotTokens n) (slotItems n) :=
  brackets_joined (by simp) (by simp) _ _ _ fun _ _ => brackets_token (by simp) (by simp)

/-- Slots are as many arguments. -/
theorem arguments_slots (n : Nat) (hn : n ≠ 0) :
    arguments (slotItems n) = some (List.replicate n .slot) := by
  have hne : List.replicate n () ≠ [] := by simpa using hn
  have hcut := splitOnP_joined (p := Item.isComma) (.token (.mark ',')) rfl
    (fun _ => [Item.token .slot]) (List.replicate n ()) hne (by simp [Item.isComma])
  have hread := mapM_map_eq_some (f := argument) (fun _ => [Item.token .slot])
    (fun _ => Term.slot) (List.replicate n ()) (by intro x _; rfl)
  rw [arguments, slotItems, hcut, hread, List.map_replicate]

/-! ## Rows of terms -/

/-- A list of arguments without a comma is a single one. -/
theorem arguments_single {items : List Item} {t : Term} (hcomma : ∀ i ∈ items, i.isComma = false)
    (h : argument items = some t) : arguments items = some [t] := by
  simp [arguments, List.splitOnP_eq_singleton hcomma, h]

/-- A comma separates an argument from the others. -/
theorem arguments_cons {first rest : List Item} {t : Term} {ts : List Term}
    (hcomma : ∀ i ∈ first, i.isComma = false) (h : argument first = some t)
    (hrest : arguments rest = some ts) :
    arguments (first ++ .token (.mark ',') :: rest) = some (t :: ts) := by
  rw [arguments] at hrest ⊢
  rw [List.splitOnP_append_cons_of_forall_mem hcomma _ rfl]
  simp [h, hrest]

/-- A column is an argument. -/
theorem argument_column (c : ColumnRef) : argument c.items = some (.column c) := by
  cases c <;> rfl

/-- A column alone is a list of arguments. -/
theorem arguments_column (c : ColumnRef) : arguments c.items = some [.column c] :=
  arguments_single c.not_comma (argument_column c)

/-! ## Numbers -/

/-- A word goes on as long as its characters do. -/
theorem scan_wordChars (soFar cs : List Char) (h : ∀ c ∈ cs, isWordChar c = true) :
    scan d (.word soFar) cs = ([], .word (soFar ++ cs)) := by
  induction cs generalizing soFar with
  | nil => simp [scan]
  | cons c cs ih =>
    have hc := h c (by simp)
    have hcs := ih (soFar ++ [c]) fun x hx => h x (List.mem_cons_of_mem c hx)
    simp [scan, step, hc, hcs]

/-- A digit begins a word. -/
theorem start_digit {c : Char} (hc : c.isDigit = true) : start d c = ([], .word [c]) := by
  have hblank : c ≠ ' ' := by rintro rfl; exact absurd hc (by decide)
  have hquote : c ≠ d.quote := by rintro rfl; cases d <;> exact absurd hc (by decide)
  simp [start, hblank, hquote, isWordChar, Char.isAlphanum, hc]

/-- A number is written in digits. -/
theorem digits_toString (n : Nat) : ∀ c ∈ (toString n).toList, c.isDigit = true := by
  intro c hc
  have hmem : c ∈ Nat.toDigits 10 n := by simpa using hc
  exact Nat.isDigit_of_mem_toDigits (by decide) (by decide) hmem

/-- A number is one token. -/
theorem reads_number (n : Nat) : Reads d (toString n).toList [.word (toString n)] := by
  have hdigits := digits_toString n
  cases hn : (toString n).toList with
  | nil => exact absurd hn (by simp)
  | cons c cs =>
    rw [hn] at hdigits
    have hword : ∀ x ∈ cs, isWordChar x = true := by
      intro x hx
      simp [isWordChar, Char.isAlphanum, hdigits x (List.mem_cons_of_mem c hx)]
    refine ⟨[], .word (c :: cs), [.word (toString n)], ?_, ?_, rfl⟩
    · have hfirst : step d .between c = ([], .word [c]) := start_digit (hdigits c (by simp))
      simp [scan, hfirst, scan_wordChars [c] cs hword]
    · rw [Mode.last?, ← hn, String.ofList_toList]

/-- A number is no word with another character in it. -/
theorem toString_ne {w : String} (n : Nat) (h : ∃ c ∈ w.toList, c.isDigit = false) :
    toString n ≠ w := by
  rintro rfl
  obtain ⟨c, hc, hdigit⟩ := h
  exact absurd (digits_toString n c hc) (by simp [hdigit])

/-- A number is a term. -/
theorem term_number (n : Nat) : term [.token (.word (toString n))] = some (.number (toString n)) := by
  have hdigits : (toString n).toList.all Char.isDigit = true :=
    List.all_eq_true.mpr (digits_toString n)
  rw [term, if_pos hdigits]

/-! ## Terms that are tested -/

/-- A test in a row of items is no condition in parentheses, and it divides the row. -/
theorem factor_test {left : List Item} (hleft : ∀ i ∈ left, i.isTest = false) (x : Item)
    (hx : x.isTest = true) (right : List Item) :
    factor (left ++ x :: right) = predicate (left ++ x :: right) ∧
      (left ++ x :: right).takeWhile (!·.isTest) = left ∧
      (left ++ x :: right).dropWhile (!·.isTest) = x :: right := by
  have hpos : ∀ i ∈ left, (!i.isTest) = true := by simpa using hleft
  refine ⟨?_, ?_, ?_⟩
  · cases x with
    | group ts c => simp [Item.isTest] at hx
    | token t =>
      cases left with
      | nil => rfl
      | cons i left =>
        cases i with
        | token u => rfl
        | group ts c => cases c <;> cases left <;> rfl
  · rw [List.takeWhile_append_of_pos hpos]
    simp [hx]
  · rw [List.dropWhile_append_of_pos hpos]
    simp [hx]

variable (left : List Item) {l : Term}

/-- Two terms with a comparison between them are a comparison. -/
theorem factor_compare (hleft : ∀ i ∈ left, i.isTest = false) (hl : term left = some l)
    {s : String} {op : Comparison} (hs : comparison? s = some op) {right : List Item} {r : Term}
    (hr : term right = some r) :
    factor (left ++ .token (.sign s) :: right) = some (.compare l op r) := by
  obtain ⟨hfactor, htake, hdrop⟩ := factor_test hleft (.token (.sign s)) rfl right
  simp only [hfactor, predicate, htake, hdrop, hl, hs, hr]
  rfl

/-- Two terms with `LIKE` between them are a match. -/
theorem factor_like (hleft : ∀ i ∈ left, i.isTest = false) (hl : term left = some l)
    {right : List Item} {r : Term} (hr : term right = some r) :
    factor (left ++ .token (.word "LIKE") :: right) = some (.like l r) := by
  obtain ⟨hfactor, htake, hdrop⟩ := factor_test hleft (.token (.word "LIKE")) rfl right
  simp only [hfactor, predicate, htake, hdrop, hl, hr]
  rfl

/-- A term before `IN` and arguments is compared with each. -/
theorem factor_oneOf (hleft : ∀ i ∈ left, i.isTest = false) (hl : term left = some l)
    (ts : List Term) (c : Option Condition) :
    factor (left ++ [.token (.word "IN"), .group (some ts) c]) = some (.oneOf l ts) := by
  obtain ⟨hfactor, htake, hdrop⟩ :=
    factor_test hleft (.token (.word "IN")) rfl [.group (some ts) c]
  simp only [hfactor, predicate, htake, hdrop, hl]
  rfl

/-- A term before `IS NULL` is tested for it. -/
theorem factor_isNull (hleft : ∀ i ∈ left, i.isTest = false) (hl : term left = some l) :
    factor (left ++ [.token (.word "IS"), .token (.word "NULL")]) = some (.isNull l) := by
  obtain ⟨hfactor, htake, hdrop⟩ :=
    factor_test hleft (.token (.word "IS")) rfl [.token (.word "NULL")]
  simp only [hfactor, predicate, htake, hdrop, hl]
  rfl

/-- A term before `IS NOT NULL` is tested for the opposite. -/
theorem factor_isNotNull (hleft : ∀ i ∈ left, i.isTest = false) (hl : term left = some l) :
    factor (left ++ [.token (.word "IS"), .token (.word "NOT"), .token (.word "NULL")]) =
      some (.isNotNull l) := by
  obtain ⟨hfactor, htake, hdrop⟩ :=
    factor_test hleft (.token (.word "IS")) rfl [.token (.word "NOT"), .token (.word "NULL")]
  simp only [hfactor, predicate, htake, hdrop, hl]
  rfl

end Grammar

end Quarry.Sql
