import Quarry.Proofs.Outcome
import Quarry.Proofs.Sql.TermText
import Quarry.Sql.Join

/-!
# The heading of a SELECT

What a SELECT lists and which tables it reads stands in front of its condition. A reader takes both
from the text (`heading?`): the entries between SELECT and FROM, cut at the commas, and the names
behind FROM and behind each JOIN, as far as the condition, the order or the limit. It looks at
tokens, so a name may contain any of these words, and it does not mind what follows: the tokens are
taken as far as they can be told (`seen`).
-/

set_option autoImplicit false

namespace Quarry.Sql.Grammar

variable {d : Dialect}

/-! ## The tokens of a beginning -/

/-- The tokens of a text, as far as they can be told. -/
def seen (d : Dialect) (text : List Char) : List Token :=
  let read := scan d .between text
  read.1 ++ read.2.last?.getD []

/-- Of a text that is read, all tokens are seen. -/
theorem Reads.seen {cs : List Char} {ts : List Token} (h : Reads d cs ts) : seen d cs = ts := by
  obtain ⟨us, m, vs, hscan, hlast, rfl⟩ := h
  rw [Grammar.seen, hscan]
  show us ++ m.last?.getD [] = us ++ vs
  rw [hlast, Option.getD_some]

/-- Behind what closes a token the others are seen as if they stood alone. -/
theorem Closes.seen_append {cs : List Char} {ts : List Token} (h : Closes d cs ts) (ds : List Char) :
    seen d (cs ++ ds) = ts ++ seen d ds := by
  unfold Closes at h
  rw [seen, seen, scan_append, h, List.append_assoc]

/-- What follows a breaking character is seen as if nothing stood before it. -/
theorem Reads.seen_append {cs ds : List Char} {c : Char} {ts : List Token} (h : Reads d cs ts)
    (hc : isBreak c = true) : Grammar.seen d (cs ++ c :: ds) = ts ++ Grammar.seen d (c :: ds) := by
  obtain ⟨us, m, vs, hscan, hlast, rfl⟩ := h
  rw [Grammar.seen, Grammar.seen, scan_append_break hscan hlast hc, List.append_assoc]

/-! ## Entries -/

/-- An entry of a list of columns: what it refers to, perhaps under an alias. -/
structure Entry where
  column : ColumnRef
  alias? : Option String := none
  deriving DecidableEq

namespace Entry

/-- The text of an entry. -/
def fragment (e : Entry) : Fragment :=
  match e.alias? with
  | none => e.column.fragment
  | some label => e.column.fragment ++ [.word " AS ", .name label]

/-- The tokens of an entry. -/
def tokens (e : Entry) : List Token :=
  match e.alias? with
  | none => e.column.tokens
  | some label => e.column.tokens ++ [.word "AS", .name label]

/-- The entry that tokens are. -/
def ofTokens? : List Token → Option Entry
  | [.name c] => some ⟨.plain c, none⟩
  | [.name t, .mark '.', .name c] => some ⟨.qualified t c, none⟩
  | [.name t, .mark '.', .mark '*'] => some ⟨.star t, none⟩
  | [.name c, .word "AS", .name label] => some ⟨.plain c, some label⟩
  | [.name t, .mark '.', .name c, .word "AS", .name label] => some ⟨.qualified t c, some label⟩
  | _ => none

/-- The label under which a row holds what the entry refers to. All columns of a table come under
labels that the statement does not say. -/
def label? (e : Entry) : Option String :=
  match e.alias?, e.column with
  | some label, _ => some label
  | none, .plain c => some c
  | none, .qualified _ c => some c
  | none, .star _ => none

/-- Whether the entry has an alias only where it refers to one column. -/
def IsProper (e : Entry) : Prop := ∀ t, e.column = .star t → e.alias? = none

/-- An entry is read as its tokens. -/
theorem reads (e : Entry) : Reads d (Fragment.chars d e.fragment) e.tokens := by
  obtain ⟨column, _ | label⟩ := e
  · exact column.reads
  · have has : Closes d [' ', 'A', 'S', ' '] [.word "AS"] := by cases d <;> rfl
    have hlabel := has.append_reads (reads_quoteChars label)
    have hall := column.reads.append (c := ' ') rfl hlabel
    simpa [fragment, tokens, Piece.chars] using hall

/-- A proper entry is found again in its tokens. -/
theorem ofTokens?_tokens {e : Entry} (h : e.IsProper) : ofTokens? e.tokens = some e := by
  obtain ⟨column, _ | label⟩ := e
  · cases column <;> rfl
  · cases column with
    | plain c => rfl
    | qualified t c => rfl
    | star t => exact nomatch h t rfl

/-- The tokens that end an entry or the whole list are not in one. -/
theorem not_mem_tokens (e : Entry) : Token.mark ',' ∉ e.tokens ∧ Token.word "FROM" ∉ e.tokens := by
  obtain ⟨column, _ | label⟩ := e <;> cases column <;> simp [tokens, ColumnRef.tokens]

end Entry

/-! ## Headings -/

/-- What a SELECT lists and which tables it reads. -/
structure Heading where
  entries : List Entry
  tables : List String
  deriving DecidableEq

namespace Heading

/-- The labels of the columns. -/
def labels (h : Heading) : List String := h.entries.filterMap Entry.label?

end Heading

/-- The names behind FROM and JOIN. -/
def tablesIn : List Token → List String
  | [] => []
  | .word w :: .name t :: rest =>
    if w = "FROM" ∨ w = "JOIN" then t :: tablesIn rest else tablesIn rest
  | _ :: rest => tablesIn rest

/-- Whether a token begins a part that names no more tables. -/
def endsTables (t : Token) : Bool := t = .word "WHERE" || t = .word "ORDER" || t = .word "LIMIT"

/-- The entries between commas, if all of them are entries. -/
def entriesOf? (ts : List Token) : Option (List Entry) :=
  if ts.isEmpty then some [] else (ts.splitOn (.mark ',')).mapM Entry.ofTokens?

/-- The heading that tokens begin with, if they are a SELECT with plain columns. -/
def Heading.ofTokens? : List Token → Option Heading
  | [] => none
  | t :: ts =>
    if t = .word "SELECT" then
      let rest := (ts.dropWhile (· ≠ .word "FROM")).takeWhile fun t => !endsTables t
      (entriesOf? (ts.takeWhile (· ≠ .word "FROM"))).map fun entries => ⟨entries, tablesIn rest⟩
    else none

/-- The heading of a statement. -/
def heading? (d : Dialect) (text : String) : Option Heading := Heading.ofTokens? (seen d text.toList)

/-! ## Lists of columns -/

/-- The tokens of a list of entries. -/
def listTokens (entries : List Entry) : List Token := [Token.mark ','].intercalate (entries.map Entry.tokens)

/-- There is no `FROM` in a list of entries. -/
theorem not_mem_listTokens (entries : List Entry) : Token.word "FROM" ∉ listTokens entries := by
  rw [listTokens]
  induction entries with
  | nil => exact List.not_mem_nil
  | cons e rest ih =>
    cases rest with
    | nil => simpa using e.not_mem_tokens.2
    | cons e' rest =>
      rw [List.map_cons, List.map_cons, List.intercalate_cons_cons]
      intro hmem
      simp only [List.append_assoc, List.mem_append, List.mem_singleton] at hmem
      obtain hmem | hmem | hmem := hmem
      · exact e.not_mem_tokens.2 hmem
      · exact nomatch hmem
      · exact ih hmem

/-- Proper entries are found again in the tokens of their list. -/
theorem entriesOf?_listTokens {entries : List Entry} (h : ∀ e ∈ entries, e.IsProper) :
    entriesOf? (listTokens entries) = some entries := by
  cases entries with
  | nil => rfl
  | cons e rest =>
    have hsome : (listTokens (e :: rest)).isEmpty = false := by
      have hfirst : e.tokens ≠ [] := by
        obtain ⟨column, _ | label⟩ := e <;> cases column <;> exact List.cons_ne_nil _ _
      cases rest <;> simp [listTokens, List.intercalate_cons_cons, hfirst]
    have hcut : (listTokens (e :: rest)).splitOn (.mark ',') = (e :: rest).map Entry.tokens := by
      apply List.splitOn_intercalate
      · intro ts hts
        obtain ⟨e', -, rfl⟩ := List.mem_map.mp hts
        exact e'.not_mem_tokens.1
      · exact List.cons_ne_nil _ _
    have hread := mapM_map_eq_some (f := Entry.ofTokens?) Entry.tokens id (e :: rest) fun e' he' =>
      Entry.ofTokens?_tokens (h e' he')
    rw [entriesOf?, hsome, if_neg Bool.false_ne_true, hcut, hread, List.map_id]

/-- A list of entries is read as its tokens. -/
theorem reads_list (entries : List Entry) :
    Reads d (Fragment.chars d (Fragment.joined ", " (entries.map Entry.fragment))) (listTokens entries) := by
  cases entries with
  | nil => exact ⟨[], .between, [], rfl, rfl, rfl⟩
  | cons e rest =>
    exact reads_joined separates_comma Entry.fragment Entry.tokens (e :: rest) (List.cons_ne_nil _ _)
      fun e' _ => e'.reads

/-! ## Tables -/

/-- A text that begins with a blank, if it is not empty. -/
def IsSpaced (cs : List Char) : Prop := cs = [] ∨ ∃ ds, cs = ' ' :: ds

/-- Spaced texts one after the other. -/
theorem IsSpaced.append {cs ds : List Char} (h : IsSpaced cs) (h' : IsSpaced ds) :
    IsSpaced (cs ++ ds) := by
  obtain rfl | ⟨rest, rfl⟩ := h
  · exact h'
  · exact .inr ⟨rest ++ ds, rfl⟩

/-- A spaced text is read behind another one as if it stood alone. -/
theorem Reads.append_spaced {cs ds : List Char} {ts us : List Token} (h : Reads d cs ts)
    (hspaced : IsSpaced ds) (h' : Reads d ds us) : Reads d (cs ++ ds) (ts ++ us) := by
  obtain rfl | ⟨rest, rfl⟩ := hspaced
  · have hnil : us = [] := h'.seen.symm
    rw [hnil, List.append_nil, List.append_nil]
    exact h
  · exact h.append rfl h'

/-- Behind a text, a spaced one is seen as if it stood alone. -/
theorem Reads.seen_spaced {cs ds : List Char} {ts : List Token} (h : Reads d cs ts)
    (hspaced : IsSpaced ds) : Grammar.seen d (cs ++ ds) = ts ++ Grammar.seen d ds := by
  obtain rfl | ⟨rest, rfl⟩ := hspaced
  · rw [List.append_nil, h.seen]
    exact (List.append_nil ts).symm
  · exact h.seen_append rfl

/-- The tokens of a join. -/
def joinTokens (kind : JoinKind) (table : String) (left right : ColumnRef) : List Token :=
  [.word kind.label, .word "JOIN", .name table, .word "ON"] ++ left.tokens ++ .sign "=" :: right.tokens

/-- Tokens that name tables: a join of each. -/
inductive JoinsTables : List Token → List String → Prop
  | nil : JoinsTables [] []
  | cons {ts : List Token} {tables : List String} (kind : JoinKind) (table : String)
      (left right : ColumnRef) (h : JoinsTables ts tables) :
      JoinsTables (joinTokens kind table left right ++ ts) (table :: tables)

/-- Joins one after the other. -/
theorem JoinsTables.append {ts us : List Token} {tables others : List String} (h : JoinsTables ts tables)
    (h' : JoinsTables us others) : JoinsTables (ts ++ us) (tables ++ others) := by
  induction h with
  | nil => exact h'
  | cons kind table left right _ ih =>
    rw [List.append_assoc]
    exact ih.cons kind table left right

/-- The tables of joins are found in their tokens. -/
theorem JoinsTables.tablesIn {ts : List Token} {tables : List String} (h : JoinsTables ts tables) :
    Grammar.tablesIn ts = tables := by
  induction h with
  | nil => rfl
  | cons kind table left right _ ih =>
    cases kind <;> cases left <;> cases right <;>
      simp [joinTokens, JoinKind.label, ColumnRef.tokens, Grammar.tablesIn, ih]

/-- Joins do not end the tables. -/
theorem JoinsTables.goesOn {ts : List Token} {tables : List String} (h : JoinsTables ts tables) :
    ∀ t ∈ ts, endsTables t = false := by
  induction h with
  | nil => exact nofun
  | cons kind table left right _ ih =>
    intro t ht
    obtain hhere | hlater := List.mem_append.mp ht
    · have hall : ((joinTokens kind table left right).all fun t => !endsTables t) = true := by
        cases kind <;> cases left <;> cases right <;> rfl
      simpa using List.all_eq_true.mp hall t hhere
    · exact ih t hlater

/-! ## Whole headings -/

/-- What may stand behind the tables: nothing, or a part that begins with a word of its own. -/
def EndsHeading (cs : List Char) : Prop :=
  cs = [] ∨ ∃ w ∈ [" WHERE ", " ORDER BY ", " LIMIT "], ∃ rest, cs = w.toList ++ rest

/-- What ends a heading may be followed by more that does. -/
theorem EndsHeading.append {cs ds : List Char} (h : EndsHeading cs) (h' : EndsHeading ds) :
    EndsHeading (cs ++ ds) := by
  obtain rfl | ⟨w, hw, rest, rfl⟩ := h
  · exact h'
  · exact .inr ⟨w, hw, rest ++ ds, List.append_assoc _ _ _⟩

/-- What ends a heading is spaced. -/
theorem EndsHeading.isSpaced {cs : List Char} (h : EndsHeading cs) : IsSpaced cs := by
  obtain rfl | ⟨w, hw, rest, rfl⟩ := h
  · exact .inl rfl
  · simp only [List.mem_cons, List.not_mem_nil, or_false] at hw
    obtain rfl | rfl | rfl := hw <;> exact .inr ⟨_, rfl⟩

/-- No table is looked for in it. -/
theorem EndsHeading.takeWhile_seen {cs : List Char} (h : EndsHeading cs) :
    (seen d cs).takeWhile (fun t => !endsTables t) = [] := by
  obtain rfl | ⟨w, hw, rest, rfl⟩ := h
  · rfl
  · have hbegins : ∃ t ts, Closes d w.toList (t :: ts) ∧ endsTables t = true := by
      simp only [List.mem_cons, List.not_mem_nil, or_false] at hw
      obtain rfl | rfl | rfl := hw
      · exact ⟨.word "WHERE", [], by cases d <;> rfl, rfl⟩
      · exact ⟨.word "ORDER", [.word "BY"], by cases d <;> rfl, rfl⟩
      · exact ⟨.word "LIMIT", [], by cases d <;> rfl, rfl⟩
    obtain ⟨t, ts, hcloses, hends⟩ := hbegins
    rw [hcloses.seen_append, List.cons_append, List.takeWhile_cons, hends]
    rfl

/-- The heading is found again in the tokens of a statement. -/
theorem Heading.ofTokens?_eq {entries : List Entry} {table : String} {joined : List String}
    {ts behind : List Token} (hproper : ∀ e ∈ entries, e.IsProper) (hjoined : JoinsTables ts joined)
    (hbehind : behind.takeWhile (fun t => !endsTables t) = []) :
    ofTokens? (.word "SELECT" :: (listTokens entries ++ .word "FROM" :: .name table :: (ts ++ behind))) =
      some ⟨entries, table :: joined⟩ := by
  have hlisted : ∀ t ∈ listTokens entries, decide (t ≠ .word "FROM") = true := by
    intro t ht
    have hne : t ≠ .word "FROM" := fun heq => not_mem_listTokens entries (heq ▸ ht)
    exact decide_eq_true hne
  have htables : (.word "FROM" :: .name table :: (ts ++ behind)).takeWhile (fun t => !endsTables t) =
      .word "FROM" :: .name table :: ts := by
    have hgoes : ∀ t ∈ ts, (!endsTables t) = true := by
      intro t ht
      rw [hjoined.goesOn t ht]
      rfl
    show .word "FROM" :: .name table :: (ts ++ behind).takeWhile (fun t => !endsTables t) = _
    rw [List.takeWhile_append_of_pos hgoes, hbehind, List.append_nil]
  rw [ofTokens?, if_pos rfl]
  dsimp only
  rw [List.takeWhile_append_of_pos hlisted, List.dropWhile_append_of_pos hlisted,
    List.takeWhile_cons_of_neg (by simp), List.dropWhile_cons_of_neg (by simp), List.append_nil,
    entriesOf?_listTokens hproper, htables]
  show some (Heading.mk entries (table :: tablesIn ts)) = _
  rw [hjoined.tablesIn]

/-- The heading is found again in the text of a statement. -/
theorem heading?_eq (table : String) {list joins tail : List Char} {entries : List Entry}
    {ts : List Token} {joined : List String} (hlist : Reads d list (listTokens entries))
    (hproper : ∀ e ∈ entries, e.IsProper) (hjoins : Reads d joins ts) (hspaced : IsSpaced joins)
    (hjoined : JoinsTables ts joined) (htail : EndsHeading tail) :
    heading? d (String.ofList ("SELECT ".toList ++
      (list ++ (" FROM ".toList ++ (d.quoteChars table.toList ++ (joins ++ tail)))))) =
      some ⟨entries, table :: joined⟩ := by
  have hselect : Closes d "SELECT ".toList [.word "SELECT"] := by cases d <;> rfl
  have hfrom : Closes d " FROM ".toList [.word "FROM"] := by cases d <;> rfl
  have hblank (cs : List Char) : IsSpaced (" FROM ".toList ++ cs) := .inr ⟨_, rfl⟩
  rw [heading?, String.toList_ofList, hselect.seen_append, hlist.seen_spaced (hblank _),
    hfrom.seen_append, (reads_quoteChars table).seen_spaced (hspaced.append htail.isSpaced),
    hjoins.seen_spaced htail.isSpaced]
  show Heading.ofTokens? (.word "SELECT" ::
    (listTokens entries ++ .word "FROM" :: .name table :: (ts ++ seen d tail))) = _
  exact Heading.ofTokens?_eq hproper hjoined htail.takeWhile_seen

end Quarry.Sql.Grammar
