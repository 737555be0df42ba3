import Quarry.Proofs.Repository.Referring
import Quarry.Proofs.Text.Cut
import Quarry.Proofs.Text.Words

/-!
# Columns with their tables

Where several tables take part, a column without its table may be that of any of them. A select with
joins or relations names the table of every column in its statement
(`Select.isQualified_of_isJoined`): its own one for the caller's keys, unless a key brings a table,
and for a relation's columns that of the relation. What comes without a column is a star, which
stands for all columns of a table: it is asked for by a dotted star or by a relation without
declared keys, and a local or foreign key that is a star also makes one.
-/

set_option autoImplicit false

namespace Quarry

open Sql (Aggregate ColumnRef Dialect Join Relation Statement)
open Text.Name (toSnake)

namespace Sql

/-! ## Keys and their tables -/

namespace ColumnRef

/-- What a key without a dot refers to in a table. -/
def ofTable (table key : String) : ColumnRef :=
  if key = "*" then .star table else .qualified table (toSnake key)

/-- A key without a dot is a plain column. -/
theorem ofKey_of_not_mem {key : String} (h : '.' ∉ key.toList) : ofKey key = .plain (toSnake key) := by
  rw [ofKey, Text.cutLast_of_not_mem h]

/-- A key behind a table refers to a column of it, and nothing in the table's name changes that. -/
theorem ofKey_append {table key : String} (h : '.' ∉ key.toList) :
    ofKey (table ++ "." ++ key) = ofTable table key := by
  have hcut : Text.cutLast '.' (table ++ "." ++ key).toList = some (table.toList, key.toList) := by
    have hlast : Text.lastParts '.' key.toList = ([], key.toList) := by
      rw [Text.lastParts, Text.cutLast_of_not_mem h]
    have happend := Text.cutLast_append '.' table.toList key.toList
    rw [hlast, List.append_nil] at happend
    simpa using happend
  have hstar : key.toList = "*".toList ↔ key = "*" := String.toList_inj
  rw [ofKey, hcut]
  simp only [String.ofList_toList, ofTable, ← hstar]
  rfl

/-- A dotted key is cut at its last dot. -/
theorem exists_ofTable {key : String} (h : '.' ∈ key.toList) :
    ∃ table column, table ++ "." ++ column = key ∧ '.' ∉ column.toList ∧
      ofKey key = ofTable table column := by
  obtain ⟨table, column, hsplit, hcolumn⟩ := Text.exists_last h
  have hlast : '.' ∉ (String.ofList column).toList := by rwa [String.toList_ofList]
  have hparts : String.ofList table ++ "." ++ String.ofList column = key := by
    rw [← String.toList_inj, hsplit]
    simp
  exact ⟨String.ofList table, String.ofList column, hparts, hlast, hparts ▸ ofKey_append hlast⟩

/-- A column of a table stays one under any owner. -/
theorem under_ofTable (owner : Value) (table key : String) :
    (ofTable table key).under owner = ofTable table key := by
  unfold ofTable
  split_ifs <;> rfl

end ColumnRef

/-! ## Keys that the caller gives -/

/-- The keys of an aggregate: that of its column, and those in the condition of its case. -/
def Aggregate.keys (a : Aggregate) : List String :=
  a.columnKey.display :: match a.case.asOptionalFields with
    | .ok case => keysOf (case.valueOr "when" .null)
    | .error _ => []

/-- The keys of a join. -/
def Join.keys (j : Join) : List String := [j.left.display, j.right.display]

end Sql

namespace Select

variable {d : Dialect} {r : Repository} {s : Select} {st : Statement} {given more : List String}

/-- The keys of a select's list: those that are chosen, or else all. -/
def listedKeys (r : Repository) (s : Select) : List String :=
  if s.columns.isEmpty then r.codec.keys else s.columns.map Value.display

/-- The keys that a select is made from: those of its list, its joins, its conditions and its
order. -/
def keys (r : Repository) (s : Select) : List String :=
  s.listedKeys r ++ s.joins.flatMap Join.keys ++ (s.condition :: s.groups).flatMap Sql.keysOf ++
    s.order.flatMap Sql.orderKeys

/-- A reference that says to which table its column belongs. -/
inductive IsOwned (r : Repository) (s : Select) (given : List String) : ColumnRef → Prop where
  /-- A key without a dot is a column of the select's own table. -/
  | main {key : String} (hkey : key ∈ given) (hdot : '.' ∉ key.toList) :
    IsOwned r s given (.qualified r.table.display (toSnake key))
  /-- A dotted key, or its column name, brings a table with it. -/
  | dotted {key table column : String} (hkey : key ∈ given)
    (hparts : table ++ "." ++ column = key ∨ table ++ "." ++ column = toSnake key)
    (hdot : '.' ∉ column.toList) : IsOwned r s given (.ofTable table column)
  /-- A declared column of a relation is one of the relation's table. -/
  | related {e : String × Relation} {column : String} (he : e ∈ s.relations r)
    (hcolumn : column ∈ e.2.namedColumns) : IsOwned r s given (.qualified e.2.table.display column)
  /-- A relation without declared columns brings all columns of its table. -/
  | whole {e : String × Relation} (he : e ∈ s.relations r) (hnone : e.2.declaredKeys = []) :
    IsOwned r s given (.star e.2.table.display)
  /-- A relation's local key is one of the select's own table. -/
  | localKey {e : String × Relation} (he : e ∈ s.relations r) :
    IsOwned r s given (.ofTable r.table.display e.2.localKey.display)
  /-- A relation's foreign key is one of the relation's table. -/
  | foreignKey {e : String × Relation} (he : e ∈ s.relations r) :
    IsOwned r s given (.ofTable e.2.table.display e.2.foreignKey.display)

namespace IsOwned

/-- No column is left without a table. -/
theorem ne_plain {c : ColumnRef} (h : s.IsOwned r given c) (column : String) : c ≠ .plain column := by
  have hpair (table key : String) : ColumnRef.ofTable table key ≠ .plain column := by
    unfold ColumnRef.ofTable
    split_ifs <;> exact nofun
  cases h with
  | main => exact nofun
  | dotted => exact hpair _ _
  | related => exact nofun
  | whole => exact nofun
  | localKey => exact hpair _ _
  | foreignKey => exact hpair _ _

/-- A column is owned whatever else is given. -/
theorem mono {c : ColumnRef} (h : s.IsOwned r given c) (hsub : given ⊆ more) :
    s.IsOwned r more c := by
  cases h with
  | main hkey hdot => exact .main (hsub hkey) hdot
  | dotted hkey hparts hdot => exact .dotted (hsub hkey) hparts hdot
  | related he hcolumn => exact .related he hcolumn
  | whole he hnone => exact .whole he hnone
  | localKey he => exact .localKey he
  | foreignKey he => exact .foreignKey he

end IsOwned

/-! ## The parts of a statement -/

/-- The owner of a joined select is its table. -/
theorem owner_eq (h : s.isJoined = true) : s.owner r = r.table := by
  rw [owner, if_pos h]

/-- The columns of references and joins are owned. -/
theorem isOwned_compared
    (hjoins : ∀ j ∈ s.joins, '.' ∈ j.left.display.toList ∧ '.' ∈ j.right.display.toList)
    (hreferences : ∀ e ∈ s.relations r,
      '.' ∉ e.2.localKey.display.toList ∧ '.' ∉ e.2.foreignKey.display.toList) :
    ∀ c ∈ s.compared r, s.IsOwned r (s.keys r) c := by
  -- A join is not told the table at hand, so only its keys' dots can save it.
  have hkey {key : String} (hmem : key ∈ s.joins.flatMap Join.keys) (hdot : '.' ∈ key.toList) :
      s.IsOwned r (s.keys r) (ColumnRef.ofKey key) := by
    obtain ⟨table, column, hparts, hcolumn, hreference⟩ := ColumnRef.exists_ofTable hdot
    rw [hreference]
    refine .dotted ?_ (.inl hparts) hcolumn
    simp only [keys, List.mem_append]
    exact .inl (.inl (.inr hmem))
  intro c hc
  obtain hrelated | hjoined := List.mem_append.mp hc
  · obtain ⟨e, he, hmem⟩ := List.mem_flatMap.mp hrelated
    obtain ⟨hlocal, hforeign⟩ := hreferences e he
    obtain rfl | hmem := List.mem_cons.mp hmem
    · show s.IsOwned r (s.keys r) (ColumnRef.ofKey (r.table.display ++ "." ++ e.2.localKey.display))
      rw [ColumnRef.ofKey_append hlocal]
      exact .localKey he
    · obtain rfl := List.mem_singleton.mp hmem
      show s.IsOwned r (s.keys r) (ColumnRef.ofKey (e.2.table.display ++ "." ++ e.2.foreignKey.display))
      rw [ColumnRef.ofKey_append hforeign]
      exact .foreignKey he
  · obtain ⟨j, hj, hmem⟩ := List.mem_flatMap.mp hjoined
    obtain ⟨hleft, hright⟩ := hjoins j hj
    obtain rfl | hmem := List.mem_cons.mp hmem
    · exact hkey (List.mem_flatMap.mpr ⟨j, hj, List.mem_cons_self⟩) hleft
    · obtain rfl := List.mem_singleton.mp hmem
      exact hkey (List.mem_flatMap.mpr ⟨j, hj, List.mem_cons_of_mem _ List.mem_cons_self⟩) hright

/-- A column of the aggregates is that of one of them. -/
theorem exists_of_mem_zipWith {d : Dialect} {owner : Value} {utc : Bool} {aggregates : List Aggregate}
    {actives : List (Option (Record × Sql.Filter))}
    (h : aggregates.mapM (Aggregate.activeCase d owner utc) = .ok actives) {cs : List ColumnRef}
    (hcs : cs ∈ List.zipWith (Aggregate.columns owner) aggregates actives) :
    ∃ a active, a ∈ aggregates ∧ a.activeCase d owner utc = .ok active ∧ a.columns owner active = cs := by
  have hall := mapM_eq_ok_iff.mp h
  clear h
  induction hall with
  | nil => exact nomatch hcs
  | @cons a active aggregates actives hactive _ ih =>
    obtain rfl | hrest := List.mem_cons.mp hcs
    · exact ⟨a, active, List.mem_cons_self, hactive, rfl⟩
    · obtain ⟨b, other, hb, hother, rfl⟩ := ih hrest
      exact ⟨b, other, List.mem_cons_of_mem a hb, hother, rfl⟩

section Qualified

variable (htable : r.table.isTrue = true) (hjoined : s.isJoined = true)
include htable hjoined

/-- A key is owned by its table, whether it is given by itself or as a column name. -/
theorem isOwned_under {key written : String} (hkey : key ∈ given)
    (hwritten : written = key ∨ written = toSnake key) :
    s.IsOwned r given ((ColumnRef.ofKey written).under (s.owner r)) := by
  have hdots : '.' ∈ written.toList ↔ '.' ∈ key.toList := by
    obtain rfl | rfl := hwritten
    · rfl
    · exact Text.Name.dot_mem_toSnake_iff key
  by_cases hdot : '.' ∈ key.toList
  · obtain ⟨table, column, rfl, hcolumn, hreference⟩ := ColumnRef.exists_ofTable (hdots.mpr hdot)
    rw [hreference, ColumnRef.under_ofTable]
    exact .dotted hkey hwritten hcolumn
  · have hname : toSnake written = toSnake key := by
      obtain rfl | rfl := hwritten
      · rfl
      · exact Text.Name.toSnake_toSnake key
    rw [ColumnRef.ofKey_of_not_mem (mt hdots.mp hdot), hname, owner_eq hjoined, ColumnRef.under,
      if_pos htable]
    exact .main hkey hdot

/-- The columns that a select lists are owned. -/
theorem isOwned_listed : ∀ c ∈ s.listed r, s.IsOwned r (s.keys r) c := by
  have hfirst : s.listedKeys r ⊆ s.keys r := by
    intro key hkey
    simp only [keys, List.mem_append]
    exact .inl (.inl (.inl hkey))
  unfold listedKeys at hfirst
  intro c hc
  obtain hown | hrelated := List.mem_append.mp hc
  · obtain ⟨written, hwritten, rfl⟩ := List.mem_map.mp hown
    split_ifs at hwritten hfirst
    · obtain ⟨key, hkey, rfl⟩ := List.mem_map.mp hwritten
      exact isOwned_under htable hjoined (hfirst hkey) (.inr rfl)
    · exact isOwned_under htable hjoined (hfirst hwritten) (.inl rfl)
  · obtain ⟨e, he, hmem⟩ := List.mem_flatMap.mp hrelated
    obtain ⟨entry, hentry, rfl⟩ := List.mem_map.mp hmem
    unfold Relation.entries at hentry
    split_ifs at hentry with hnone
    · obtain rfl := List.mem_singleton.mp hentry
      exact .whole he (List.isEmpty_iff.mp hnone)
    · obtain ⟨column, hcolumn, rfl⟩ := List.mem_map.mp hentry
      exact .related he hcolumn

/-- The columns of its filter are owned. -/
theorem isOwned_filter {f : Sql.Filter} (h : s.filter d r = .ok f) :
    ∀ c ∈ f.columns, s.IsOwned r (s.keys r) c := by
  intro c hc
  obtain ⟨key, hkey, rfl⟩ := Sql.columns_of_compile h c hc
  apply isOwned_under htable hjoined _ (.inl rfl)
  simp only [keys, List.mem_append]
  exact .inl (.inr hkey)

/-- The columns of its order are owned. -/
theorem isOwned_ordered : ∀ c ∈ s.ordered r, s.IsOwned r (s.keys r) c := by
  intro c hc
  obtain ⟨item, hitem, hmem⟩ := List.mem_flatMap.mp hc
  obtain ⟨key, hkey, rfl⟩ := List.mem_map.mp hmem
  apply isOwned_under htable hjoined _ (.inl rfl)
  exact List.mem_append_right _ (List.mem_flatMap.mpr ⟨item, hitem, hkey⟩)

/-- The columns of an aggregate are owned. -/
theorem isOwned_aggregate {a : Aggregate} {active : Option (Record × Sql.Filter)}
    (h : a.activeCase d (s.owner r) r.codec.utc = .ok active) :
    ∀ c ∈ a.columns (s.owner r) active, s.IsOwned r a.keys c := by
  intro c hc
  match active with
  | none =>
    change c ∈ a.plainColumns (s.owner r) at hc
    unfold Aggregate.plainColumns at hc
    split_ifs at hc
    · exact nomatch hc
    · obtain rfl := List.mem_singleton.mp hc
      exact isOwned_under htable hjoined List.mem_cons_self (.inl rfl)
  | some (case, filter) =>
    obtain ⟨hcase, hfilter⟩ := Aggregate.of_activeCase h
    obtain ⟨key, hkey, rfl⟩ := Sql.columns_of_compile hfilter c hc
    apply isOwned_under htable hjoined _ (.inl rfl)
    rw [Aggregate.keys, hcase]
    exact List.mem_cons_of_mem _ (by simpa using hkey)

end Qualified

/-! ## Whole statements -/

/-- No column that a text refers to is left without a table, and all of them are owned. -/
def IsQualified (d : Dialect) (r : Repository) (s : Select) (given : List String) (text : String) : Prop :=
  ∃ cs, Sql.Grammar.RefersTo d text cs ∧ ∀ c ∈ cs, (∀ column, c ≠ .plain column) ∧ s.IsOwned r given c

/-- A text that refers to owned columns is qualified. -/
theorem isQualified_of_isOwned {text : String} {cs : List ColumnRef} (hcs : Sql.Grammar.RefersTo d text cs)
    (h : ∀ c ∈ cs, s.IsOwned r given c) : s.IsQualified d r given text :=
  ⟨cs, hcs, fun c hc => ⟨(h c hc).ne_plain, h c hc⟩⟩

/-- A repository has a table that counts as true, and so columns are qualified with it. -/
theorem isTrue_table {settings : Settings} {declaration : Declaration}
    (h : Repository.ofDeclaration settings declaration = .ok r) : r.table.isTrue = true := by
  obtain ⟨outline, houtline, hrest⟩ := bind_eq_ok.mp h
  obtain ⟨codec, -, rfl⟩ := functor_map_eq_ok.mp hrest
  unfold Declaration.outline at houtline
  split_ifs at houtline with hnone
  · exact nomatch houtline
  · exact nomatch houtline
  · simpa using hnone

/-- Every column that a statement of several tables refers to has a table, also where aggregates are
computed. It is the select's own one unless a dotted key or a relation says otherwise. -/
theorem isQualified_of_isJoined {settings : Settings} {declaration : Declaration}
    (hr : Repository.ofDeclaration settings declaration = .ok r) (hjoined : s.isJoined = true)
    (hjoins : ∀ j ∈ s.joins, '.' ∈ j.left.display.toList ∧ '.' ∈ j.right.display.toList)
    (hreferences : ∀ e ∈ s.relations r,
      '.' ∉ e.2.localKey.display.toList ∧ '.' ∉ e.2.foreignKey.display.toList)
    (hraw : ∀ c ∈ s.columns, Sql.isRawValue c ≠ .ok true) :
    (∀ st, s.build d r = .ok st → s.IsQualified d r (s.keys r) st.sql) ∧
    ∀ aggregates st, s.buildAggregates d r aggregates = .ok st →
      s.IsQualified d r (s.keys r ++ aggregates.flatMap Aggregate.keys) st.sql := by
  have htable := isTrue_table hr
  constructor
  · intro st hst
    obtain ⟨f, hfilter, hrefers⟩ := refersTo_of_build hraw hst
    apply isQualified_of_isOwned hrefers
    simp only [List.forall_mem_append]
    exact ⟨⟨⟨isOwned_listed htable hjoined, isOwned_compared hjoins hreferences⟩,
      isOwned_filter htable hjoined hfilter⟩, isOwned_ordered htable hjoined⟩
  · intro aggregates st hst
    obtain ⟨f, actives, hfilter, hactives, hrefers⟩ := refersTo_of_buildAggregates hst
    have hown : s.keys r ⊆ s.keys r ++ aggregates.flatMap Aggregate.keys := List.subset_append_left _ _
    apply isQualified_of_isOwned hrefers
    simp only [List.forall_mem_append]
    refine ⟨⟨?_, ?_⟩, ?_⟩
    · intro c hc
      obtain ⟨cs, hcs, hmem⟩ := List.mem_flatten.mp hc
      obtain ⟨a, active, ha, hactive, rfl⟩ := exists_of_mem_zipWith hactives hcs
      apply (isOwned_aggregate htable hjoined hactive c hmem).mono
      exact fun key hkey => List.mem_append_right _ (List.mem_flatMap.mpr ⟨a, ha, hkey⟩)
    · intro c hc
      exact (isOwned_compared hjoins hreferences c hc).mono hown
    · intro c hc
      exact (isOwned_filter htable hjoined hfilter c hc).mono hown

/-- Posts with their authors, of whom the given keys are read. -/
def signed (localKey : String) (keys : Value) : Declaration where
  table := .text "post"
  keys := .list [.text "id", .text "title"]
  relations := .record [("author", .record [("table", .text "user"), ("local_key", .text localKey),
    ("foreign_key", .text "id"), ("type", .text "belongsTo"), ("keys", keys)])]

/-- The posts that have a word for a tag, with their authors, by title. -/
def tagged : Select where
  condition := .record [("title", .text "Lemmas"), ("tag.word", .text "lean")]
  order := [.record [("column", .text "title")]]
  joins := [⟨.text "tag", .text "tag.postId", .text "post.id", .inner⟩]
  related := ["author"]

/-- Tagged posts are selected and counted by qualified columns. -/
theorem isQualified_tagged :
    ∃ r st st', Repository.ofDeclaration {} (signed "authorId" (.list [.text "name"])) = .ok r ∧
      tagged.build .sqlite r = .ok st ∧
      tagged.buildAggregates .mysql r [⟨.count, .text "n", .text "title", .null, none⟩] = .ok st' ∧
      tagged.IsQualified .sqlite r (tagged.keys r) st.sql ∧
      tagged.IsQualified .mysql r (tagged.keys r ++ ["title"]) st'.sql := by
  have hr : Repository.ofDeclaration {} (signed "authorId" (.list [.text "name"])) = .ok _ := rfl
  have hboth (d : Dialect) :=
    isQualified_of_isJoined (d := d) (s := tagged) hr rfl (by decide) (by decide) nofun
  have hbuilt := (hboth .sqlite).1 _ rfl
  have hcomputed := (hboth .mysql).2 [⟨.count, .text "n", .text "title", .null, none⟩] _ rfl
  exact ⟨_, _, _, hr, rfl, rfl, hbuilt, hcomputed⟩

/-- Posts with their authors. -/
def withAuthor : Select where
  related := ["author"]

/-- Stars are written that no key asks for with a dot: for a relation without declared keys all
columns of its table, and for a local key that is a star all columns of the select's own table. -/
theorem stars_without_dots :
    ∃ r r' st st', Repository.ofDeclaration {} (signed "authorId" .null) = .ok r ∧
      Repository.ofDeclaration {} (signed "*" (.list [.text "name"])) = .ok r' ∧
      withAuthor.build .sqlite r = .ok st ∧ withAuthor.build .sqlite r' = .ok st' ∧
      Sql.Grammar.mentioned? .sqlite st.sql = some [.qualified "post" "id", .qualified "post" "title",
        .star "user", .qualified "post" "author_id", .qualified "user" "id"] ∧
      Sql.Grammar.mentioned? .sqlite st'.sql = some [.qualified "post" "id", .qualified "post" "title",
        .qualified "user" "name", .star "post", .qualified "user" "id"] ∧
      (∀ key ∈ withAuthor.keys r, '.' ∉ key.toList) ∧ ∀ key ∈ withAuthor.keys r', '.' ∉ key.toList := by
  have hr : Repository.ofDeclaration {} (signed "authorId" .null) = .ok _ := rfl
  have hr' : Repository.ofDeclaration {} (signed "*" (.list [.text "name"])) = .ok _ := rfl
  exact ⟨_, _, _, _, hr, hr', rfl, rfl, by decide +kernel, by decide +kernel, by decide, by decide⟩

end Select

end Quarry
