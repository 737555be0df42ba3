import Quarry.Proofs.Repository.Batch
import Quarry.Proofs.Repository.Selected
import Quarry.Proofs.Row.Declared
import Quarry.Proofs.Text.Words

/-!
# Keys and columns

Rows, objects and statements all take keys and columns for one and the same thing in two spellings
(`Codec.IsOneToOne`). What a codec asks of its keys is that no two of them are the same, but several
spellings share a column. The exact condition is on the words of the keys (`Codec.isOneToOne_iff`):
no two keys have the same ones. A SELECT of several tables qualifies its columns, so there it also
matters that no key brings the qualification of another one with it, as `novel.title` does for
`title`.
-/

set_option autoImplicit false

namespace Quarry

open Sql (ColumnRef Dialect Statement)
open Text (IsLower)
open Text.Name (toSnake words)

/-! ## References -/

namespace Text

/-- The column of a key is in small letters. -/
theorem isLower_toSnake (key : String) : IsLower (toSnake key).toList := by
  rw [toSnake, String.toList_ofList]
  exact isLower_lowerFrom [] _

/-- A name in small letters stays as it is. -/
theorem IsLower.toSnake_eq {name : String} (h : IsLower name.toList) : toSnake name = name := by
  rw [toSnake, Name.snake, h.markBoundaries_eq, lower, h.lowerFrom_eq, String.ofList_toList]

/-- A text is cut at a character that it has. -/
theorem eq_of_cutLast_eq_some {c : Char} {cs a b : List Char} (h : cutLast c cs = some (a, b)) :
    cs = a ++ c :: b := by
  induction cs generalizing a with
  | nil => exact nomatch h
  | cons d cs ih =>
    rw [cutLast] at h
    cases hrest : cutLast c cs with
    | none =>
      rw [hrest] at h
      dsimp only at h
      split_ifs at h with hd
      obtain ⟨rfl, rfl⟩ := Prod.mk.inj (Option.some.inj h)
      rw [hd]
      rfl
    | some parts =>
      obtain ⟨front, back⟩ := parts
      rw [hrest] at h
      obtain ⟨rfl, rfl⟩ := Prod.mk.inj (Option.some.inj h)
      rw [ih hrest]
      rfl

end Text

namespace Sql.ColumnRef

/-- The name by which a reference is asked for. -/
def spelled : ColumnRef → String
  | .plain column => column
  | .qualified table column => table ++ "." ++ column
  | .star table => table ++ ".*"

/-- The name of a column is that of what it refers to. -/
theorem spelled_ofKey {name : String} (h : IsLower name.toList) : (ofKey name).spelled = name := by
  unfold ofKey
  cases hcut : Text.cutLast '.' name.toList with
  | none => exact h.toSnake_eq
  | some parts =>
    obtain ⟨table, column⟩ := parts
    have hname := Text.eq_of_cutLast_eq_some hcut
    dsimp only
    split_ifs with hstar
    · rw [hstar] at hname
      apply String.toList_inj.mp
      rw [hname]
      simp [spelled]
    · have hcolumn : IsLower (String.ofList column).toList := by
        intro c hc
        rw [String.toList_ofList] at hc
        apply h c
        rw [hname]
        exact List.mem_append_right _ (List.mem_cons_of_mem _ hc)
      apply String.toList_inj.mp
      rw [hname, hcolumn.toSnake_eq]
      simp [spelled]

/-- In a table whose name is a text every key refers to something. -/
theorem exists_ofValue {owner : Value} (howner : owner = .null ∨ ∃ table, owner = .text table)
    (key : String) : ∃ r, ofValue owner (.text key) = .ok r := by
  show ∃ r, (ofKey key).within owner = .ok r
  cases ofKey key with
  | plain column =>
    obtain rfl | ⟨table, rfl⟩ := howner
    · exact ⟨.plain column, rfl⟩
    · rw [within]
      split_ifs
      · exact ⟨.qualified table column, rfl⟩
      · exact ⟨.plain column, rfl⟩
  | qualified table column => exact ⟨_, rfl⟩
  | star table => exact ⟨_, rfl⟩

/-- Columns that an owner makes equal were equal. -/
theorem under_inj {owner : Value} {a b : ColumnRef} (h : a.under owner = b.under owner)
    (ha : ∀ column, owner.isTrue = true → a = .qualified owner.display column → b ≠ .plain column)
    (hb : ∀ column, owner.isTrue = true → b = .qualified owner.display column → a ≠ .plain column) :
    a = b := by
  cases howner : owner.isTrue with
  | false =>
    have hself (r : ColumnRef) : r.under owner = r := by cases r <;> simp [under, howner]
    rwa [hself, hself] at h
  | true =>
    cases a with
    | plain column =>
      cases b with
      | plain other => simpa [under, howner] using h
      | qualified table other =>
        obtain ⟨rfl, rfl⟩ : owner.display = table ∧ column = other := by simpa [under, howner] using h
        exact absurd rfl (hb column howner rfl)
      | star table => simp [under, howner] at h
    | qualified table column =>
      cases b with
      | plain other =>
        obtain ⟨rfl, rfl⟩ : table = owner.display ∧ column = other := by simpa [under, howner] using h
        exact absurd rfl (ha column howner rfl)
      | qualified table' other => simpa [under] using h
      | star table' => simp [under] at h
    | star table =>
      cases b with
      | plain other => simp [under, howner] at h
      | qualified table' other => simp [under] at h
      | star table' => simpa [under] using h

end Sql.ColumnRef

/-! ## Keys that are told apart -/

namespace Codec

variable {c : Codec} {d : Dialect} {object : Value} {skipAuto part : Bool} {row : Record}

/-- No two keys have the same words. -/
def HasDistinctWords (c : Codec) : Prop :=
  ∀ key ∈ c.keys, ∀ other ∈ c.keys, words key.toList = words other.toList → key = other

/-- No key brings the table of another one with it. -/
def SpellsNoTable (c : Codec) : Prop :=
  ∀ key ∈ c.keys, ∀ other ∈ c.keys, ∀ table column, table ≠ "" →
    ColumnRef.ofKey (toSnake key) = .qualified table column →
      ColumnRef.ofKey (toSnake other) ≠ .plain column

/-- Keys and columns are one to one, wherever a codec is used: different keys have different
columns, the lookup from columns to keys is the inverse of the one from keys to columns, a row has
one column for each key that it is written for, no insert names a column twice, and no select lists
a declared one twice. -/
structure IsOneToOne (c : Codec) : Prop where
  columns : ∀ key ∈ c.keys, ∀ other ∈ c.keys, toSnake key = toSnake other → key = other
  inverse : ∀ key column, c.keyOf? column = some key ↔ (key, column) ∈ c.columns
  rows : ∀ object skipAuto part row, c.toRow object skipAuto part = .ok row →
    row.names = (c.keys.filter fun key => !part || c.writes skipAuto object key).map toSnake
  inserts : ∀ d r objects force st, r.codec = c → Insert.build d r objects force = .ok (some st) →
    ∃ table g, st = Insert.Grid.statement d table g ∧ g.columns ⊆ c.columnNames ∧ g.columns.Nodup
  selects : ∀ (d : Dialect) (r : Repository) (s : Select) (st : Statement), r.codec = c →
    s.columns = [] → s.build d r = .ok st →
    ∃ own others tables, Sql.Grammar.heading? d st.sql = some ⟨own ++ others, tables⟩ ∧
      own.length = c.keys.length ∧ own.Nodup

/-- Keys have distinct words exactly if they have distinct columns. -/
theorem hasDistinctWords_iff : c.HasDistinctWords ↔
    ∀ key ∈ c.keys, ∀ other ∈ c.keys, toSnake key = toSnake other → key = other := by
  unfold HasDistinctWords
  simp only [Text.Name.toSnake_eq_iff]

/-- Distinct words make distinct columns. -/
theorem nodup_columnNames (hkeys : c.keys.Nodup) (hwords : c.HasDistinctWords) :
    c.columnNames.Nodup :=
  List.Nodup.map_on (hasDistinctWords_iff.mp hwords) hkeys

/-- With distinct words a column leads back to its key. -/
theorem keyOf?_eq_some_iff (hwords : c.HasDistinctWords) (key column : String) :
    c.keyOf? column = some key ↔ (key, column) ∈ c.columns := by
  have hmem : (key, column) ∈ c.columns ↔ key ∈ c.keys ∧ toSnake key = column := by
    simp [columns]
  rw [hmem]
  constructor
  · intro h
    have hfound := List.find?_some h
    have hkey := List.mem_of_find?_eq_some h
    exact ⟨List.mem_reverse.mp hkey, by simpa using hfound⟩
  · rintro ⟨hkey, rfl⟩
    obtain ⟨other, hother⟩ := exists_keyOf? (c := c) (List.mem_map_of_mem hkey)
    have hcolumn : toSnake other = toSnake key := by simpa using List.find?_some hother
    have hmem' := List.mem_reverse.mp (List.mem_of_find?_eq_some hother)
    rw [hother, hasDistinctWords_iff.mp hwords other hmem' key hkey hcolumn]

/-! ## Rows -/

/-- A full row has the columns of all keys. -/
theorem names_encodeKeys_full {keys : List String} {out : Record}
    (hnodup : (row.names ++ keys.map toSnake).Nodup)
    (h : c.encodeKeys skipAuto false object row keys = .ok out) :
    out.names = row.names ++ keys.map toSnake := by
  induction keys generalizing row with
  | nil =>
    obtain rfl := Except.ok.inj h
    exact (List.append_nil _).symm
  | cons key rest ih =>
    obtain ⟨x, hx, hrest⟩ := bind_eq_ok.mp h
    obtain ⟨w, rfl⟩ := exists_encodeKey hx
    have hnew : toSnake key ∉ row.names := by
      intro hmem
      have hdisjoint := (List.nodup_append.mp hnodup).2.2
      exact hdisjoint _ hmem _ List.mem_cons_self rfl
    have hnames : (row.set (toSnake key) w).names = row.names ++ [toSnake key] := by
      rw [Record.names_set, if_neg hnew]
    have hlater : ((row.set (toSnake key) w).names ++ rest.map toSnake).Nodup := by
      simpa [hnames] using hnodup
    rw [ih hlater hrest, hnames, List.append_assoc]
    rfl

/-- A row has the columns of its keys, with distinct words. -/
theorem names_toRow_of_distinct (hkeys : c.keys.Nodup) (hwords : c.HasDistinctWords)
    (h : c.toRow object skipAuto part = .ok row) :
    row.names = (c.keys.filter fun key => !part || c.writes skipAuto object key).map toSnake := by
  have hnodup := nodup_columnNames hkeys hwords
  cases part with
  | false =>
    have hempty : (Record.names [] ++ c.keys.map toSnake).Nodup := hnodup
    rw [names_encodeKeys_full hempty h]
    simp [Record.names]
  | true =>
    have hsublist : ((c.keys.filter (c.writes skipAuto object)).map toSnake).Nodup :=
      hnodup.sublist (List.filter_sublist.map toSnake)
    rw [names_toRow h, suppliedColumns, eraseDups_of_nodup hsublist]
    simp

end Codec

/-! ## Statements -/

namespace Insert

variable {d : Dialect} {r : Repository}

/-- What an insert writes are some of the columns, in their order. -/
theorem sublist_written (d : Dialect) (columns : List String) (first : Record) :
    (written d columns first).Sublist columns := by
  unfold written
  split_ifs
  · exact List.Sublist.refl columns
  · exact List.filter_sublist

/-- An insert names columns of its codec, in their order. -/
theorem exists_grid {objects : Value} {force : Bool} {st : Statement}
    (h : build d r objects force = .ok (some st)) :
    ∃ table g, st = Grid.statement d table g ∧ g.columns.Sublist r.codec.columnNames := by
  obtain ⟨items, first, rest, table, -, -, rfl⟩ := of_build h
  refine ⟨table, Grid.ofRows d r.codec.columnNames first (first :: rest), ?_, sublist_written d _ first⟩
  exact statement_fragment d table r.codec.columnNames first (first :: rest)

end Insert

namespace Select

variable {d : Dialect} {r : Repository} {s : Select}

/-- Different columns are listed as different references, except that a column may bring the
qualification of another one with it. -/
theorem nodup_ownEntries (hkeys : r.codec.keys.Nodup) (hwords : r.codec.HasDistinctWords)
    (hspelled : r.codec.SpellsNoTable) {table : String} (htable : r.table = .text table) :
    (s.ownEntries r).Nodup := by
  have howner : (s.owner r).isTrue = true → (s.owner r).display ≠ "" := by
    unfold owner
    rw [htable]
    split_ifs
    · intro htrue hempty
      rw [show table = "" from hempty] at htrue
      exact absurd htrue (by decide)
    · exact nofun
  have hentries : s.ownEntries r = r.codec.keys.map fun key =>
      ⟨(ColumnRef.ofKey (toSnake key)).under (s.owner r), none⟩ := by
    simp [ownEntries, Codec.columnNames]
  rw [hentries]
  apply List.Nodup.map_on _ hkeys
  intro key hkey other hother hsame
  obtain ⟨hcolumns, -⟩ := Sql.Grammar.Entry.mk.inj hsame
  have href := ColumnRef.under_inj hcolumns
    (fun column htrue hqualified => hspelled key hkey other hother _ column (howner htrue) hqualified)
    (fun column htrue hqualified => hspelled other hother key hkey _ column (howner htrue) hqualified)
  -- Before the owner is put in, the references are the same as well, and each spells its column.
  apply Codec.hasDistinctWords_iff.mp hwords key hkey other hother
  rw [← ColumnRef.spelled_ofKey (Text.isLower_toSnake key), href,
    ColumnRef.spelled_ofKey (Text.isLower_toSnake other)]

/-- All columns of a codec can be listed. -/
theorem exists_columnList {owner : Value} (howner : owner = .null ∨ ∃ table, owner = .text table)
    (c : Codec) : ∃ f, Sql.columnList owner (c.columnNames.map .text) [] [] = .ok f := by
  have hown : ∃ own, Sql.ownColumns owner (c.columnNames.map .text) [] = .ok own := by
    apply exists_mapM_eq_ok
    intro v hv
    obtain ⟨column, -, rfl⟩ := List.mem_map.mp hv
    obtain ⟨reference, href⟩ := ColumnRef.exists_ofValue howner column
    exact ⟨some reference.fragment, by rw [href]; rfl⟩
  obtain ⟨own, hown⟩ := hown
  have hall : own.all Option.isSome = true := by
    rw [Sql.ownColumns_eq hown]
    simp
  apply exists_bind_eq_ok hown
  apply exists_bind_eq_ok (a := []) rfl
  rw [if_pos hall]
  exact ⟨_, rfl⟩

/-- A select that joins one more table of a repository. It can always be built. -/
def joining : Select where
  joins := [⟨.text "other", .text "id", .text "id", .inner⟩]

/-- The tables of the select with one more table can be written. -/
theorem exists_fromClause_joining (c : Codec) (table : String) :
    ∃ tables, joining.fromClause ⟨.text table, c, [], .null, .proper {}⟩ = .ok tables := by
  obtain ⟨reference, href⟩ := ColumnRef.exists_ofValue (.inl rfl) "id"
  have hjoin : ∃ f, Sql.Join.fragment ⟨.text "other", .text "id", .text "id", .inner⟩ = .ok f := by
    apply exists_bind_eq_ok (a := "other") rfl
    apply exists_bind_eq_ok href
    apply exists_bind_eq_ok href
    exact ⟨_, rfl⟩
  obtain ⟨f, hf⟩ := hjoin
  have hjoins : Sql.Join.fragments joining.joins = .ok [f].flatten := by
    rw [joining, Sql.Join.fragments, List.mapM_cons, hf]
    rfl
  apply exists_bind_eq_ok (a := table) rfl
  apply exists_bind_eq_ok (a := []) rfl
  apply exists_bind_eq_ok (a := []) rfl
  apply exists_bind_eq_ok hjoins
  exact ⟨_, rfl⟩

/-- The select with one more table can be built. -/
theorem exists_build_joining (d : Dialect) (c : Codec) (table : String) :
    ∃ st, joining.build d ⟨.text table, c, [], .null, .proper {}⟩ = .ok st := by
  obtain ⟨columns, hcolumns⟩ := exists_columnList (.inr ⟨table, rfl⟩) c
  obtain ⟨tables, htables⟩ := exists_fromClause_joining c table
  have hfragment : ∃ f, joining.fragment d ⟨.text table, c, [], .null, .proper {}⟩ = .ok f := by
    have hfilter : joining.filter d ⟨.text table, c, [], .null, .proper {}⟩ = .ok ⟨[], []⟩ := rfl
    apply exists_bind_eq_ok hcolumns
    apply exists_bind_eq_ok hfilter
    apply exists_bind_eq_ok htables
    exact ⟨_, rfl⟩
  obtain ⟨f, hf⟩ := hfragment
  exact ⟨f.statement d, by rw [build_eq, hf]; rfl⟩

end Select

namespace Codec

/-- A select with another table puts the name of the repository's table before a plain column. A key
that spells it out itself is then listed as the same reference. -/
theorem IsOneToOne.spellsNoTable {c : Codec} (h : c.IsOneToOne) : c.SpellsNoTable := by
  intro key hkey other hother table column htable hqualified hplain
  obtain ⟨st, hst⟩ := Select.exists_build_joining .sqlite c table
  obtain ⟨own, others, tables, hheading, hlength, hnodup⟩ := h.selects _ _ _ st rfl rfl hst
  rw [Select.heading?_of_build hst rfl] at hheading
  have hentries := congrArg Sql.Grammar.Heading.entries (Option.some.inj hheading)
  obtain ⟨hown, -⟩ := List.append_inj hentries (by rw [hlength]; simp [Select.ownEntries, columnNames])
  have hentry : (ColumnRef.ofKey (toSnake key)).under (.text table) =
      (ColumnRef.ofKey (toSnake other)).under (.text table) := by
    have htrue : (Value.text table).isTrue = true := by simp [Value.isTrue, htable]
    rw [hqualified, hplain]
    show _ = if (Value.text table).isTrue then ColumnRef.qualified table column else _
    rw [if_pos htrue]
    rfl
  have hcolumn : toSnake key = toSnake other := by
    rw [← hown] at hnodup
    apply List.inj_on_of_nodup_map hnodup (List.mem_map_of_mem hkey) (List.mem_map_of_mem hother)
    exact congrArg (Sql.Grammar.Entry.mk · none) hentry
  rw [hcolumn, hplain] at hqualified
  cases hqualified

/-- Keys and columns correspond exactly when no two keys have the same words, and none brings a
qualification with it that a SELECT would give to another one. -/
theorem isOneToOne_iff {keys : List Value} {autoSet kinds : Value} {utc parseJson : Bool} {c : Codec}
    (h : make keys autoSet kinds utc parseJson = .ok c) :
    c.IsOneToOne ↔ c.HasDistinctWords ∧ c.SpellsNoTable := by
  obtain ⟨-, hkeys, -, -⟩ := of_make h
  constructor
  · intro hone
    exact ⟨hasDistinctWords_iff.mpr hone.columns, hone.spellsNoTable⟩
  · rintro ⟨hwords, hspelled⟩
    constructor
    case columns => exact hasDistinctWords_iff.mp hwords
    case inverse => exact keyOf?_eq_some_iff hwords
    case rows =>
      intro object skipAuto part row hrow
      exact names_toRow_of_distinct hkeys hwords hrow
    case inserts =>
      rintro d r objects force st rfl hbuild
      obtain ⟨table, g, hst, hcolumns⟩ := Insert.exists_grid hbuild
      exact ⟨table, g, hst, hcolumns.subset, (nodup_columnNames hkeys hwords).sublist hcolumns⟩
    case selects =>
      rintro d r s st rfl hcolumns hbuild
      have hheading := Select.heading?_of_build hbuild hcolumns
      obtain ⟨_, _, tables, _, _, _, _, htables, _⟩ := Select.of_build hbuild
      obtain ⟨table, _, _, htable, _⟩ := Select.reads_fromClause (d := d) htables
      refine ⟨s.ownEntries r, _, _, hheading, ?_, Select.nodup_ownEntries hkeys hwords hspelled htable⟩
      simp [Select.ownEntries, columnNames]

/-- The keys of drafts and their columns are one to one. -/
theorem isOneToOne_iff_drafts :
    ∃ c, make [.text "id", .text "isDraft"] (.tuple []) .null false false = .ok c ∧ c.IsOneToOne ∧
      c.columnNames = ["id", "is_draft"] := by
  have hmade : make [.text "id", .text "isDraft"] (.tuple []) .null false false =
      .ok ⟨["id", "isDraft"], [], [], false, false⟩ := make_plain ["id", "isDraft"] (by decide) false false
  refine ⟨_, hmade, (isOneToOne_iff hmade).mpr ⟨?_, ?_⟩, rfl⟩
  · unfold HasDistinctWords
    decide
  · intro key hkey other hother table column _ hqualified
    have hplain : ∀ k ∈ ["id", "isDraft"], ColumnRef.ofKey (toSnake k) = .plain (toSnake k) := by
      decide
    rw [hplain key hkey] at hqualified
    exact nomatch hqualified

/-- Two spellings of one column pass for different keys. An insert then names the column twice, and
what the object has under the first key is lost. -/
theorem not_isOneToOne_twins :
    ∃ c, make [.text "aB", .text "a_b"] (.tuple []) .null false false = .ok c ∧ ¬c.IsOneToOne ∧
      Insert.build .sqlite ⟨.text "t", c, [], .null, .proper {}⟩ (.list [.record [("aB", .int 1)]]) false =
        .ok (some ⟨"INSERT INTO \"t\" (\"a_b\", \"a_b\") VALUES (?, ?)", [.null, .null]⟩) := by
  refine ⟨⟨["aB", "a_b"], [], [], false, false⟩, make_plain ["aB", "a_b"] (by decide) false false, ?_, rfl⟩
  intro hone
  have hsame := hone.columns "aB" List.mem_cons_self "a_b" (by simp) (by decide)
  exact absurd hsame (by decide)

end Codec

end Quarry
