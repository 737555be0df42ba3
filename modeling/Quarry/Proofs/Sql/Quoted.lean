import Quarry.Proofs.Sql.Token
import Quarry.Sql.Column

/-!
# Names in quotes

A name in quotes ends at the first quote that is not doubled, and a doubled quote stands for one.
`readName?` reads a text by this rule, and knows nothing else of how names are quoted. It finds out
the name and where it ends, whatever the name is and whatever stands behind it but another quote;
and it reads no other texts (`nameChars?_eq_some_iff`). So different names are different in quotes,
and two names with a dot between them are read as these two names.
-/

set_option autoImplicit false

namespace Quarry.Sql

namespace Dialect

variable {d : Dialect} {q : Char}

/-! ## Reading a name -/

/-- The characters up to the first quote that is not doubled, and what follows this quote. A doubled
quote stands for one. -/
def closeQuotes? (q : Char) : List Char → Option (List Char × List Char)
  | [] => none
  | [c] => if c = q then some ([], []) else none
  | c :: next :: rest =>
    if c = q then
      if next = q then (closeQuotes? q rest).map fun (name, behind) => (q :: name, behind)
      else some ([], next :: rest)
    else (closeQuotes? q (next :: rest)).map fun (name, behind) => (c :: name, behind)

/-- The name in quotes that a text begins with, and what follows it. -/
def nameChars? (d : Dialect) : List Char → Option (List Char × List Char)
  | [] => none
  | c :: cs => if c = d.quote then closeQuotes? d.quote cs else none

/-- The two names in quotes, with a dot between them, that a text begins with, and what follows
them. -/
def qualifiedChars? (d : Dialect) (cs : List Char) : Option (List Char × List Char × List Char) :=
  match d.nameChars? cs with
  | some (table, '.' :: rest) => (d.nameChars? rest).map fun (column, behind) => (table, column, behind)
  | _ => none

/-- The name in quotes that a text begins with, and what follows it. -/
def readName? (d : Dialect) (text : String) : Option (String × String) :=
  (d.nameChars? text.toList).map fun (name, behind) => (String.ofList name, String.ofList behind)

/-- The two names in quotes, with a dot between them, that a text begins with, and what follows
them. -/
def readQualified? (d : Dialect) (text : String) : Option (String × String × String) :=
  (d.qualifiedChars? text.toList).map fun (table, column, behind) =>
    (String.ofList table, String.ofList column, String.ofList behind)

/-- Whether a text may follow a name in quotes without being taken for more of it. -/
def MayFollow (d : Dialect) (cs : List Char) : Prop := cs.head? ≠ some d.quote

/-! ## What is read -/

/-- A character that is no quote belongs to the name. -/
theorem closeQuotes?_cons_of_ne {c : Char} (hc : c ≠ q) (cs : List Char) :
    closeQuotes? q (c :: cs) = (closeQuotes? q cs).map fun (name, behind) => (c :: name, behind) := by
  cases cs with
  | nil => simp [closeQuotes?, hc]
  | cons next rest => rw [closeQuotes?, if_neg hc]

/-- What was doubled is read as it was, up to the quote behind it. -/
theorem closeQuotes?_doubleQuotes (name : List Char) {behind : List Char} (hbehind : behind.head? ≠ some q) :
    closeQuotes? q (doubleQuotes q name ++ q :: behind) = some (name, behind) := by
  induction name with
  | nil =>
    cases behind with
    | nil => simp [doubleQuotes, closeQuotes?]
    | cons next rest =>
      have hnext : next ≠ q := by simpa using hbehind
      simp [doubleQuotes, closeQuotes?, hnext]
  | cons c name ih =>
    by_cases hc : c = q
    · simp [doubleQuotes, closeQuotes?, hc, ih]
    · rw [doubleQuotes, if_neg hc, List.cons_append, closeQuotes?_cons_of_ne hc, ih]
      rfl

/-- Nothing else is read. -/
theorem eq_of_closeQuotes? {cs name behind : List Char} (h : closeQuotes? q cs = some (name, behind)) :
    cs = doubleQuotes q name ++ q :: behind ∧ behind.head? ≠ some q := by
  induction cs using closeQuotes?.induct q generalizing name with
  | case1 => simp [closeQuotes?] at h
  | case2 =>
    obtain ⟨rfl, rfl⟩ : [] = name ∧ [] = behind := by simpa [closeQuotes?] using h
    exact ⟨rfl, nofun⟩
  | case3 c hc => simp [closeQuotes?, hc] at h
  | case4 rest ih =>
    simp only [closeQuotes?, if_true, Option.map_eq_some_iff] at h
    obtain ⟨⟨shorter, _⟩, hread, hname⟩ := h
    obtain ⟨rfl, rfl⟩ := Prod.mk.inj hname
    obtain ⟨rfl, hbehind⟩ := ih hread
    exact ⟨by simp [doubleQuotes], hbehind⟩
  | case5 next rest hnext =>
    obtain ⟨rfl, rfl⟩ : [] = name ∧ next :: rest = behind := by simpa [closeQuotes?, hnext] using h
    exact ⟨rfl, by simpa using hnext⟩
  | case6 c next rest hc ih =>
    rw [closeQuotes?, if_neg hc, Option.map_eq_some_iff] at h
    obtain ⟨⟨shorter, _⟩, hread, hname⟩ := h
    obtain ⟨rfl, rfl⟩ := Prod.mk.inj hname
    obtain ⟨hrest, hbehind⟩ := ih hread
    exact ⟨by simp [doubleQuotes, hc, hrest], hbehind⟩

/-- A name is read exactly where it was quoted and something may follow. -/
theorem nameChars?_eq_some_iff {cs name behind : List Char} :
    d.nameChars? cs = some (name, behind) ↔ cs = d.quoteChars name ++ behind ∧ d.MayFollow behind := by
  have hquoted :
      d.quoteChars name ++ behind = d.quote :: (doubleQuotes d.quote name ++ d.quote :: behind) := by
    simp [quoteChars]
  rw [hquoted]
  constructor
  · intro h
    cases cs with
    | nil => simp [nameChars?] at h
    | cons c cs =>
      by_cases hc : c = d.quote
      · rw [nameChars?, if_pos hc] at h
        obtain ⟨rfl, hbehind⟩ := eq_of_closeQuotes? h
        exact ⟨by rw [hc], hbehind⟩
      · simp [nameChars?, hc] at h
  · rintro ⟨rfl, hbehind⟩
    rw [nameChars?, if_pos rfl, closeQuotes?_doubleQuotes name hbehind]

/-- A dot is no quote, and so the name in front of it ends there. -/
theorem mayFollow_dot (cs : List Char) : d.MayFollow ('.' :: cs) := by
  cases d <;> simp [MayFollow, quote]

/-- A qualified name is read exactly where its parts were quoted and something may follow. -/
theorem qualifiedChars?_eq_some_iff {cs table column behind : List Char} :
    d.qualifiedChars? cs = some (table, column, behind) ↔
      cs = d.quoteChars table ++ '.' :: (d.quoteChars column ++ behind) ∧ d.MayFollow behind := by
  unfold qualifiedChars?
  constructor
  · intro h
    split at h
    · rename_i first rest hfirst
      obtain ⟨⟨second, _⟩, hsecond, hnames⟩ := Option.map_eq_some_iff.mp h
      obtain ⟨rfl, hrest⟩ := Prod.mk.inj hnames
      obtain ⟨rfl, rfl⟩ := Prod.mk.inj hrest
      obtain ⟨rfl, -⟩ := nameChars?_eq_some_iff.mp hfirst
      obtain ⟨rfl, hbehind⟩ := nameChars?_eq_some_iff.mp hsecond
      exact ⟨rfl, hbehind⟩
    · exact nomatch h
  · rintro ⟨rfl, hbehind⟩
    have hsecond : d.nameChars? (d.quoteChars column ++ behind) = some (column, behind) :=
      nameChars?_eq_some_iff.mpr ⟨rfl, hbehind⟩
    simp only [nameChars?_eq_some_iff.mpr ⟨rfl, mayFollow_dot _⟩, hsecond, Option.map_some]

/-- A text is read as a name and something behind it if it is this name in quotes and then the
rest. -/
theorem readName?_eq_some_iff {text name behind : String} :
    d.readName? text = some (name, behind) ↔
      text = d.quoteName name ++ behind ∧ d.MayFollow behind.toList := by
  have hchars :
      text = d.quoteName name ++ behind ↔ text.toList = d.quoteChars name.toList ++ behind.toList := by
    rw [← String.toList_inj, String.toList_append, quoteName, String.toList_ofList]
  rw [hchars, ← nameChars?_eq_some_iff, readName?, Option.map_eq_some_iff]
  constructor
  · rintro ⟨⟨n, b⟩, hread, hsame⟩
    obtain ⟨rfl, rfl⟩ := Prod.mk.inj hsame
    rw [String.toList_ofList, String.toList_ofList, hread]
  · intro hread
    exact ⟨_, hread, by simp⟩

/-- A qualified column is read exactly from its text and what follows. -/
theorem readQualified?_eq_some_iff {text table column behind : String} :
    d.readQualified? text = some (table, column, behind) ↔
      text = Fragment.sql d (ColumnRef.qualified table column).fragment ++ behind ∧
        d.MayFollow behind.toList := by
  have hchars : text = Fragment.sql d (ColumnRef.qualified table column).fragment ++ behind ↔
      text.toList = d.quoteChars table.toList ++ '.' :: (d.quoteChars column.toList ++ behind.toList) := by
    rw [← String.toList_inj, String.toList_append, Fragment.sql, String.toList_ofList]
    simp [Fragment.chars, ColumnRef.fragment, Piece.chars]
  rw [hchars, ← qualifiedChars?_eq_some_iff, readQualified?, Option.map_eq_some_iff]
  constructor
  · rintro ⟨⟨t, c, b⟩, hread, hsame⟩
    obtain ⟨rfl, hrest⟩ := Prod.mk.inj hsame
    obtain ⟨rfl, rfl⟩ := Prod.mk.inj hrest
    rw [String.toList_ofList, String.toList_ofList, String.toList_ofList, hread]
  · intro hread
    exact ⟨_, hread, by simp⟩

/-- The lexer of statements takes a name in quotes for one token, and goes on behind it as if
anew. -/
theorem tokens?_quoteName (name : String) {behind : String} (h : d.MayFollow behind.toList) :
    Grammar.tokens? d (d.quoteName name ++ behind).toList =
      (Grammar.tokens? d behind.toList).map (.name name :: ·) := by
  have hopen : Grammar.step d .between d.quote = ([], .name []) := by cases d <;> rfl
  have hclose : Grammar.step d (.name name.toList) d.quote = ([], .closing name.toList) := by cases d <;> rfl
  have hname : Grammar.scan d .between (d.quoteChars name.toList) = ([], .closing name.toList) := by
    simp [quoteChars, Grammar.scan, Grammar.scan_append, Grammar.scan_doubleQuotes, hopen, hclose]
  rw [String.toList_append, quoteName, String.toList_ofList, Grammar.tokens?, Grammar.scan_append, hname]
  cases hrest : behind.toList with
  | nil => simp [Grammar.tokens?, Grammar.scan, Grammar.Mode.last?]
  | cons c cs =>
    have hc : c ≠ d.quote := by simpa [MayFollow, hrest] using h
    simp [Grammar.tokens?, Grammar.scan, Grammar.step, Grammar.startAfter, hc, Function.comp_def]

/-! ## Names are told by their quoted forms -/

/-- Different names are quoted differently. -/
theorem quoteName_injective (d : Dialect) : Function.Injective d.quoteName := by
  intro name name' hsame
  have hread (n : String) : d.readName? (d.quoteName n) = some (n, "") :=
    readName?_eq_some_iff.mpr ⟨by simp, nofun⟩
  have hboth := (hread name).symm.trans ((congrArg d.readName? hsame).trans (hread name'))
  exact congrArg Prod.fst (Option.some.inj hboth)

/-- In both dialects, for every name and every text that does not begin with a quote: of the name in
quotes and then the text, the name is read and the text is left, and no other texts are read so.
Different names are different in quotes, and two names with a dot between them are read as these
two. A statement's lexer finds the same name where it meets one. -/
theorem names_delimited (d : Dialect) :
    (∀ text name behind : String, d.readName? text = some (name, behind) ↔
      text = d.quoteName name ++ behind ∧ d.MayFollow behind.toList) ∧
    Function.Injective d.quoteName ∧
    (∀ text table column behind : String, d.readQualified? text = some (table, column, behind) ↔
      text = Fragment.sql d (ColumnRef.qualified table column).fragment ++ behind ∧
        d.MayFollow behind.toList) ∧
    ∀ name behind : String, d.MayFollow behind.toList →
      Grammar.tokens? d (d.quoteName name ++ behind).toList =
        (Grammar.tokens? d behind.toList).map (.name name :: ·) :=
  ⟨fun _ _ _ => readName?_eq_some_iff, quoteName_injective d, fun _ _ _ _ => readQualified?_eq_some_iff,
    fun name _ h => tokens?_quoteName name h⟩

/-- A table and a column whose names are made of quotes and dots, and a comparison behind them. -/
theorem names_delimited_hostile :
    let table := "\"\".\""
    let column := "\" = \"x"
    Dialect.sqlite.MayFollow " = ?".toList ∧
      Dialect.sqlite.readName? (Dialect.sqlite.quoteName column ++ " = ?") = some (column, " = ?") ∧
      Dialect.sqlite.readQualified? "\"\"\"\"\".\"\"\".\"\"\" = \"\"x\" = ?" = some (table, column, " = ?") ∧
      Grammar.tokens? .sqlite (Dialect.sqlite.quoteName column ++ " = ?").toList =
        some [.name column, .sign "=", .slot] := by
  intro table column
  have hfollows : Dialect.sqlite.MayFollow " = ?".toList := nofun
  obtain ⟨hname, -, hqualified, htokens⟩ := names_delimited .sqlite
  refine ⟨hfollows, (hname _ _ _).mpr ⟨rfl, hfollows⟩, ?_, ?_⟩
  · exact (hqualified _ _ _ _).mpr ⟨by decide +kernel, hfollows⟩
  · rw [htokens column " = ?" hfollows]
    rfl

end Dialect

end Quarry.Sql
