import Mathlib.Data.List.Pairwise
import Quarry.Proofs.Repository.OneToOne

/-!
# Statements whose names denote one thing

A statement is unambiguous when it reads no two tables of one name and gives no two values under one
label (`IsUnambiguous`): then a qualified column denotes one column, and a name in a result row one
value. A select refined by relations makes sure that no relation is added twice, and it looks at the
relations' names only. What has to be so for its statement to be unambiguous is a matter of the
declaration (`Select.NamesApart`): the tables must be different ones, and no alias may be spelled
like another label.
-/

set_option autoImplicit false

namespace Quarry

open Sql (ColumnRef Dialect Relation Statement)
open Sql.Grammar (Entry Heading)
open Text.Name (toSnake words)

variable {d : Dialect} {r : Repository}

/-- A statement reads no table twice and has no label twice. -/
def IsUnambiguous (d : Dialect) (text : String) : Prop :=
  ∃ heading, Sql.Grammar.heading? d text = some heading ∧ heading.tables.Nodup ∧ heading.labels.Nodup

/-- The label of a key of the table at hand: its column, without what stands before its last dot. -/
def labelOf? (key : String) : Option String := (Entry.mk (ColumnRef.ofKey (toSnake key)) none).label?

namespace Select

variable {s : Select}

/-- The relations of a select lead to tables of their own. -/
structure TablesApart (r : Repository) (s : Select) : Prop where
  /-- No relation leads to the repository's own table. -/
  away : ∀ e ∈ s.relations r, e.2.table ≠ r.table
  /-- No two relations lead to one table. -/
  distinct : ∀ e ∈ s.relations r, ∀ e' ∈ s.relations r, e.2.table = e'.2.table → e = e'

/-- The keys of the repository and of the relations of a select have labels of their own. -/
structure LabelsApart (r : Repository) (s : Select) : Prop where
  /-- No two keys of the repository have one label. -/
  own : ∀ key ∈ r.codec.keys, ∀ other ∈ r.codec.keys, ∀ label,
    labelOf? key = some label → labelOf? other = some label → key = other
  /-- No two keys of a relation have the same words. -/
  keys : ∀ e ∈ s.relations r, (e.2.declaredKeys.map fun key => words key.display.toList).Nodup
  /-- No key of the repository has the alias of a related column for a label. -/
  aliases : ∀ e ∈ s.relations r, ∀ column ∈ e.2.namedColumns, ∀ key ∈ r.codec.keys,
    labelOf? key ≠ some (e.2.aliasOf column)
  /-- No two relations share an alias. -/
  related : ∀ e ∈ s.relations r, ∀ e' ∈ s.relations r, ∀ column ∈ e.2.namedColumns,
    ∀ other ∈ e'.2.namedColumns, e.2.aliasOf column = e'.2.aliasOf other → e = e'

/-! ## Labels -/

/-- The labels of a relation are the aliases of its named columns. -/
theorem labels_entries (relation : Relation) :
    relation.entries.filterMap Entry.label? = relation.namedColumns.map relation.aliasOf := by
  unfold Relation.entries Relation.namedColumns
  cases relation.declaredKeys with
  | nil => rfl
  | cons key rest => simp [Entry.label?, Function.comp_def]

/-- The labels of the main table are those of its keys. -/
theorem labels_ownEntries : (s.ownEntries r).filterMap Entry.label? = r.codec.keys.filterMap labelOf? := by
  have hlabel (column : String) (owner : Value) :
      (Entry.mk ((ColumnRef.ofKey column).under owner) none).label? =
        (Entry.mk (ColumnRef.ofKey column) none).label? := by
    cases ColumnRef.ofKey column with
    | plain c =>
      rw [ColumnRef.under]
      split_ifs <;> rfl
    | qualified t c => rfl
    | star t => rfl
  rw [ownEntries, Codec.columnNames, List.map_map, List.filterMap_map]
  apply List.filterMap_congr
  intro key _
  exact hlabel (toSnake key) (s.owner r)

/-- The labels of a heading are those of the keys and of all relations. -/
theorem labels_heading : (s.heading r).labels = r.codec.keys.filterMap labelOf? ++
    (s.relations r).flatMap fun e => e.2.namedColumns.map e.2.aliasOf := by
  rw [Heading.labels, heading, List.filterMap_append, labels_ownEntries, List.filterMap_flatMap]
  simp only [labels_entries]

/-- Of different members it does not matter in which order they are compared. -/
theorem pairwise_iff_of_nodup {α : Type} {R : α → α → Prop} [Std.Symm R] {xs : List α} (hxs : xs.Nodup) :
    xs.Pairwise R ↔ ∀ x ∈ xs, ∀ y ∈ xs, x ≠ y → R x y :=
  ⟨fun h _ hx _ hy hne => h.forall hx hy hne, hxs.pairwise_of_forall_ne⟩

/-- What is kept of different members is different exactly if no two of them have it in common. -/
theorem nodup_filterMap_iff {α β : Type} {f : α → Option β} {xs : List α} (hxs : xs.Nodup) :
    (xs.filterMap f).Nodup ↔ ∀ x ∈ xs, ∀ y ∈ xs, ∀ z, f x = some z → f y = some z → x = y := by
  have hsymm : Std.Symm fun x y => ∀ z, f x = some z → ∀ z', f y = some z' → z ≠ z' :=
    ⟨fun x y h z hz z' hz' heq => h z' hz' z hz heq.symm⟩
  rw [List.Nodup, List.pairwise_filterMap, pairwise_iff_of_nodup hxs]
  constructor
  · intro h x hx y hy z hxz hyz
    by_contra hne
    exact h x hx y hy hne z hxz z hyz rfl
  · intro h x hx y hy hne z hxz z' hyz' heq
    rw [← heq] at hyz'
    exact hne (h x hx y hy z hxz hyz')

/-- Aliases of one relation are equal only for equal columns. -/
theorem aliasOf_inj {relation : Relation} {column other : String}
    (h : relation.aliasOf column = relation.aliasOf other) : column = other := by
  have hchars := congrArg String.toList h
  simp only [Relation.aliasOf, String.toList_append] at hchars
  exact String.toList_inj.mp (List.append_cancel_left hchars)

/-- The aliases of a relation are different exactly if its keys have different words. -/
theorem nodup_aliases_iff (relation : Relation) :
    (relation.namedColumns.map relation.aliasOf).Nodup ↔
      (relation.declaredKeys.map fun key => words key.display.toList).Nodup := by
  rw [List.nodup_map_iff fun _ _ => aliasOf_inj, Relation.namedColumns, List.Nodup, List.Nodup,
    List.pairwise_map, List.pairwise_map]
  simp only [ne_eq, Text.Name.toSnake_eq_iff]

/-- Lists are different all together exactly if each is and no two have a member in common. -/
theorem nodup_flatMap_iff {α β : Type} {f : α → List β} {xs : List α} (hxs : xs.Nodup) :
    (xs.flatMap f).Nodup ↔ (∀ x ∈ xs, (f x).Nodup) ∧
      ∀ x ∈ xs, ∀ y ∈ xs, ∀ z ∈ f x, z ∈ f y → x = y := by
  have hsymm : Std.Symm (Function.onFun List.Disjoint f) := ⟨fun x y h z hz hz' => h hz' hz⟩
  rw [List.nodup_flatMap, pairwise_iff_of_nodup hxs]
  refine and_congr_right fun _ => ?_
  constructor
  · intro h x hx y hy z hzx hzy
    by_contra hne
    exact h x hx y hy hne hzx hzy
  · intro h x hx y hy hne z hzx hzy
    exact hne (h x hx y hy z hzx hzy)

/-- The labels of a heading are different exactly if they are apart. -/
theorem nodup_labels_iff (hkeys : r.codec.keys.Nodup) (hrelations : (s.relations r).Nodup) :
    (s.heading r).labels.Nodup ↔ s.LabelsApart r := by
  rw [labels_heading, List.nodup_append, nodup_filterMap_iff hkeys, nodup_flatMap_iff hrelations]
  simp only [nodup_aliases_iff]
  constructor
  · rintro ⟨hown, ⟨hall, hrelated⟩, hdisjoint⟩
    refine ⟨hown, hall, ?_, ?_⟩
    · intro e he column hcolumn key hkey hlabel
      have hlisted := List.mem_filterMap.mpr ⟨key, hkey, hlabel⟩
      have hbrought : e.2.aliasOf column ∈
          (s.relations r).flatMap fun e => e.2.namedColumns.map e.2.aliasOf :=
        List.mem_flatMap.mpr ⟨e, he, List.mem_map_of_mem hcolumn⟩
      exact hdisjoint _ hlisted _ hbrought rfl
    · intro e he e' he' column hcolumn other hother hsame
      exact hrelated e he e' he' _ (List.mem_map_of_mem hcolumn) (hsame ▸ List.mem_map_of_mem hother)
  · rintro ⟨hown, hall, haliases, hrelated⟩
    refine ⟨hown, ⟨hall, ?_⟩, ?_⟩
    · intro e he e' he' label hlabel hlabel'
      obtain ⟨column, hcolumn, rfl⟩ := List.mem_map.mp hlabel
      obtain ⟨other, hother, hsame⟩ := List.mem_map.mp hlabel'
      exact hrelated e he e' he' column hcolumn other hother hsame.symm
    · intro label hlabel brought hbrought hsame
      obtain ⟨key, hkey, hlisted⟩ := List.mem_filterMap.mp hlabel
      obtain ⟨e, he, hmem⟩ := List.mem_flatMap.mp hbrought
      obtain ⟨column, hcolumn, rfl⟩ := List.mem_map.mp hmem
      rw [hsame] at hlisted
      exact haliases e he column hcolumn key hkey hlisted

/-! ## Tables -/

/-- The tables of a statement have names. -/
theorem exists_tables {f : Sql.Fragment} (h : s.fromClause r = .ok f) :
    (∃ table, r.table = .text table) ∧ ∀ e ∈ s.relations r, ∃ table, e.2.table = .text table := by
  obtain ⟨table, htable, hrelations⟩ := bind_eq_ok.mp h
  obtain ⟨joins, hjoins, hfetch⟩ := bind_eq_ok.mp hrelations
  obtain ⟨fetched, hfetched, -⟩ := bind_eq_ok.mp hfetch
  obtain ⟨fs, hfs, -⟩ := functor_map_eq_ok.mp hfetched
  refine ⟨⟨table, Sql.identifier_eq_ok htable⟩, ?_⟩
  intro e he
  have hmem : e.2.join r.table ∈ joins := by
    rw [joins_eq hjoins]
    exact List.mem_map_of_mem he
  obtain ⟨g, -, hg⟩ := exists_of_mapM_eq_ok hfs hmem
  obtain ⟨related, hrelated, -⟩ := bind_eq_ok.mp hg
  exact ⟨related, Sql.identifier_eq_ok hrelated⟩

/-- The tables of a heading are different exactly if they are apart. -/
theorem nodup_tables_iff {f : Sql.Fragment} (h : s.fromClause r = .ok f) (hjoins : s.joins = [])
    (hrelations : (s.relations r).Nodup) : (s.heading r).tables.Nodup ↔ s.TablesApart r := by
  obtain ⟨⟨table, htable⟩, htables⟩ := exists_tables h
  have hname : ∀ e ∈ s.relations r, ∀ v, (∃ name, v = Value.text name) →
      (e.2.table.display = v.display ↔ e.2.table = v) := by
    rintro e he v ⟨name, rfl⟩
    obtain ⟨related, hrelated⟩ := htables e he
    rw [hrelated]
    exact ⟨congrArg Value.text, congrArg Value.display⟩
  rw [heading, hjoins, List.map_nil, List.append_nil, List.nodup_cons]
  constructor
  · rintro ⟨hnot, hnodup⟩
    constructor
    case away =>
      intro e he hsame
      apply hnot
      rw [← (hname e he r.table ⟨table, htable⟩).mpr hsame]
      exact List.mem_map_of_mem he
    case distinct =>
      intro e he e' he' hsame
      apply List.inj_on_of_nodup_map hnodup he he'
      exact (hname e he e'.2.table (htables e' he')).mpr hsame
  · rintro ⟨haway, hdistinct⟩
    constructor
    · intro hmem
      obtain ⟨e, he, hsame⟩ := List.mem_map.mp hmem
      exact haway e he ((hname e he r.table ⟨table, htable⟩).mp hsame)
    · apply List.Nodup.map_on _ hrelations
      intro e he e' he' hsame
      exact hdistinct e he e' he' ((hname e he e'.2.table (htables e' he')).mp hsame)

/-! ## Refining by relations -/

/-- A select that names no tables and columns of its own and no relation twice. -/
structure IsRelational (s : Select) : Prop where
  joins : s.joins = []
  columns : s.columns = []
  related : s.related.Nodup

end Select

namespace Modifier

variable {s s' : Select} {m : Modifier} {ms : List Modifier}

/-- Whether a modifier leaves tables and columns to the declaration. -/
def isRelational : Modifier → Bool
  | .join .. => false
  | .columns _ => false
  | _ => true

/-- A modifier for relations alone leaves a select one. -/
theorem isRelational_apply (hm : m.isRelational = true) (hs : s.IsRelational)
    (h : apply r s m = .ok s') : s'.IsRelational := by
  obtain ⟨hjoins, hcolumns, hrelated⟩ := hs
  cases m with
  | order items =>
    obtain ⟨values, -, hcriteria⟩ := bind_eq_ok.mp h
    obtain ⟨criteria, -, rfl⟩ := functor_map_eq_ok.mp hcriteria
    exact ⟨hjoins, hcolumns, hrelated⟩
  | limit count =>
    obtain rfl := Except.ok.inj h
    exact ⟨hjoins, hcolumns, hrelated⟩
  | offset count =>
    obtain rfl := Except.ok.inj h
    exact ⟨hjoins, hcolumns, hrelated⟩
  | join table left right kind => exact nomatch hm
  | columns keys => exact nomatch hm
  | relation name =>
    obtain ⟨⟨known, relation⟩, -, rfl⟩ := functor_map_eq_ok.mp h
    dsimp only
    split_ifs with hthere
    · exact ⟨hjoins, hcolumns, hrelated⟩
    · have hnew : known ∉ s.related := by simpa using hthere
      exact ⟨hjoins, hcolumns, by simpa using hrelated.concat hnew⟩
  | orGroups condition =>
    unfold apply at h
    dsimp only at h
    split_ifs at h
    · obtain rfl := Except.ok.inj h
      exact ⟨hjoins, hcolumns, hrelated⟩
    · obtain ⟨groups, -, rfl⟩ := map_eq_ok.mp h
      exact ⟨hjoins, hcolumns, hrelated⟩

/-- Modifiers for relations alone leave a select one. -/
theorem isRelational_applyAll (hms : ∀ m ∈ ms, m.isRelational = true) (hs : s.IsRelational)
    (h : applyAll r s ms = .ok s') : s'.IsRelational := by
  induction ms generalizing s with
  | nil =>
    obtain rfl := Except.ok.inj h
    exact hs
  | cons m rest ih =>
    obtain ⟨next, hnext, hrest⟩ := bind_eq_ok.mp h
    obtain ⟨hm, hms⟩ := List.forall_mem_cons.mp hms
    exact ih hms (isRelational_apply hm hs hnext) hrest

end Modifier

namespace Select

variable {s : Select} {st : Statement}

/-- The relations of such a select are different. -/
theorem nodup_relations (hs : s.IsRelational) : (s.relations r).Nodup := by
  apply List.Nodup.filterMap _ hs.related
  intro name other e he he'
  obtain ⟨relation, -, rfl⟩ := Option.map_eq_some_iff.mp he
  obtain ⟨relation', -, hsame⟩ := Option.map_eq_some_iff.mp he'
  exact (congrArg Prod.fst hsame).symm

/-- A statement with relations is unambiguous exactly when the declaration keeps its tables and its
labels apart. -/
theorem isUnambiguous_iff {settings : Settings} {declaration : Declaration} {condition : Value}
    {amount : Amount} {ms : List Modifier}
    (hr : Repository.ofDeclaration settings declaration = .ok r)
    (hms : ∀ m ∈ ms, m.isRelational = true)
    (hs : Modifier.applyAll r { condition, amount } ms = .ok s) (h : s.build d r = .ok st) :
    IsUnambiguous d st.sql ↔ s.TablesApart r ∧ s.LabelsApart r := by
  have hrelational := Modifier.isRelational_applyAll hms ⟨rfl, rfl, List.nodup_nil⟩ hs
  have hrelations := nodup_relations (r := r) hrelational
  have hheading := heading?_of_build h hrelational.columns
  obtain ⟨_, _, tables, _, _, _, _, htables, _⟩ := of_build h
  obtain ⟨hkeys, -, -⟩ := Repository.of_ofDeclaration hr
  rw [← nodup_tables_iff htables hrelational.joins hrelations, ← nodup_labels_iff hkeys hrelations]
  unfold IsUnambiguous
  rw [hheading]
  constructor
  · rintro ⟨heading, hsame, hnodup⟩
    rw [Option.some.inj hsame]
    exact hnodup
  · intro hnodup
    exact ⟨s.heading r, rfl, hnodup⟩

/-- A relation to people of whom only the id is read. -/
def person (table localKey : String) : Relation :=
  ⟨.text table, .text localKey, .text "id", .belongsTo, none, some [.text "id"]⟩

/-- Posts with an author and an editor, whose tables are given. -/
def posts (authors editors : String) : Repository where
  table := .text "post"
  codec := ⟨["id", "title"], [], [], true, true⟩
  relations := [("author", person authors "authorId"), ("editor", person editors "editorId")]
  printQuery := .bool false
  options := .proper {}

/-- A relation to a table of people. -/
def personFields (table localKey : String) : Value :=
  .record [("table", .text table), ("local_key", .text localKey), ("foreign_key", .text "id"),
    ("type", .text "belongsTo"), ("keys", .list [.text "id"])]

/-- The declaration of posts with an author and an editor. -/
def postsDeclared (authors editors : String) : Declaration where
  table := .text "post"
  keys := .list [.text "id", .text "title"]
  relations := .record [("author", personFields authors "authorId"),
    ("editor", personFields editors "editorId")]

/-- The declaration of posts is accepted. -/
theorem ofDeclaration_posts (authors editors : String) :
    Repository.ofDeclaration {} (postsDeclared authors editors) = .ok (posts authors editors) := rfl

/-- A select of posts with both people. -/
def withPeople : Select where
  related := ["author", "editor"]

/-- The modifiers make this select. -/
theorem applyAll_posts (authors editors : String) :
    Modifier.applyAll (posts authors editors) {} [.relation (.text "author"), .relation (.text "editor")] =
      .ok withPeople := rfl

/-- The relations of this select. -/
theorem relations_posts (authors editors : String) : withPeople.relations (posts authors editors) =
    [("author", person authors "authorId"), ("editor", person editors "editorId")] := rfl

/-- Authors and editors in tables of their own are selected unambiguously. -/
theorem isUnambiguous_iff_posts :
    ∃ r s st, Repository.ofDeclaration {} (postsDeclared "author" "editor") = .ok r ∧
      Modifier.applyAll r {} [.relation (.text "author"), .relation (.text "editor")] = .ok s ∧
      s.build .sqlite r = .ok st ∧ IsUnambiguous .sqlite st.sql := by
  have hbuild : withPeople.build .sqlite (posts "author" "editor") = .ok _ := rfl
  refine ⟨_, _, _, ofDeclaration_posts _ _, applyAll_posts _ _, hbuild, ?_⟩
  refine (isUnambiguous_iff (ofDeclaration_posts _ _) (by decide) (applyAll_posts _ _) hbuild).mpr ⟨?_, ?_⟩
  · constructor
    case away =>
      rw [relations_posts]
      simp [person, posts]
    case distinct =>
      rw [relations_posts]
      simp [person]
  · have hids : (person "author" "authorId").namedColumns = ["id"] ∧
        (person "editor" "editorId").namedColumns = ["id"] := ⟨rfl, rfl⟩
    have hlabels : labelOf? "id" = some "id" ∧ labelOf? "title" = some "title" := ⟨rfl, rfl⟩
    have haliases : (person "author" "authorId").aliasOf "id" = "author__id" ∧
        (person "editor" "editorId").aliasOf "id" = "editor__id" := ⟨rfl, rfl⟩
    constructor
    case own =>
      intro key hkey other hother label hlabel hlabel'
      have hself : ∀ key ∈ ["id", "title"], labelOf? key = some key := by simpa using hlabels
      rw [hself key hkey] at hlabel
      rw [hself other hother] at hlabel'
      exact Option.some.inj (hlabel.trans hlabel'.symm)
    case keys =>
      rw [relations_posts]
      decide
    case aliases =>
      rw [relations_posts]
      simp [posts, hids, hlabels, haliases]
    case related =>
      rw [relations_posts]
      simp [hids, haliases]

/-- Nobody asks to which tables the relations lead. Two of them to one table join it twice under one
name, and their columns come under one alias. -/
theorem not_isUnambiguous_posts :
    ∃ r s st, Repository.ofDeclaration {} (postsDeclared "user" "user") = .ok r ∧
      Modifier.applyAll r {} [.relation (.text "author"), .relation (.text "editor")] = .ok s ∧
      s.build .sqlite r = .ok st ∧
      st.sql = "SELECT \"post\".\"id\", \"post\".\"title\", \"user\".\"id\" AS \"user__id\", " ++
        "\"user\".\"id\" AS \"user__id\" FROM \"post\" INNER JOIN \"user\" ON " ++
        "\"post\".\"author_id\" = \"user\".\"id\" INNER JOIN \"user\" ON " ++
        "\"post\".\"editor_id\" = \"user\".\"id\"" ∧
      ¬IsUnambiguous .sqlite st.sql := by
  have hbuild : withPeople.build .sqlite (posts "user" "user") = .ok _ := rfl
  refine ⟨_, _, _, ofDeclaration_posts _ _, applyAll_posts _ _, hbuild, by decide +kernel, ?_⟩
  rintro ⟨heading, hheading, htables, -⟩
  rw [heading?_of_build hbuild rfl] at hheading
  rw [← Option.some.inj hheading] at htables
  exact absurd htables (by decide)

end Select

end Quarry
