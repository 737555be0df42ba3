import Quarry.Proofs.Database.Labels
import Quarry.Proofs.Repository.Nested
import Quarry.Proofs.Row.Small

/-!
# Main objects beside a whole table

A relation that declares no keys brings all columns of its table, whatever they are called. The
object of a result row should still hold what the columns of the main table hold
(`WholeJoin.MainSurvives`). On MySQL it does, because a name that comes twice is given with its
table. On SQLite a related column that is called like one of the main table takes its place in the
row, and the object holds the related value (`WholeJoin.mainSurvives_iff`). On both, the related
object takes the place of a field that is called like the relation.

The records are those that fetching makes of an answer (`Session.exists_answer_of_fetchAll`).

Columns with a dot in their names, which are those of other tables, are left aside.
-/

set_option autoImplicit false

namespace Quarry

open Sql (Dialect Relation)
open Text.Name (toSnake)

variable {δ : Type}

/-- The columns of a result that has some columns of a main table and all of another one. -/
structure WholeJoin where
  table : String
  names : List String
  /-- The type and the length of a column of the main table. -/
  types : String → Int × Int
  otherTable : String
  others : List Column

namespace WholeJoin

variable {j : WholeJoin} {d : Dialect} {name : String}

/-- The column of a name of the main table. -/
def mainColumn (j : WholeJoin) (name : String) : Column := ⟨name, (j.types name).1, (j.types name).2⟩

/-- The columns in the order in which they are selected, by table and name. -/
def sources (j : WholeJoin) : List (String × String) :=
  j.names.map (fun name => (j.table, name)) ++ j.others.map fun c => (j.otherTable, c.name)

/-- The labels under which the database gives the columns. -/
def labels (j : WholeJoin) (d : Dialect) : List String := d.labels [] j.sources

/-- The columns as the cursor labels them. -/
def columns (j : WholeJoin) (d : Dialect) : List Column :=
  ((j.labels d).zip (j.names.map j.mainColumn ++ j.others)).map fun f => { f.2 with name := f.1 }

/-- The answer with rows that are given by what the columns of the main table hold and by the values
of the other table. -/
def answer (j : WholeJoin) (d : Dialect) (rows : List ((String → Value) × List Value)) : Answer where
  columns := some (j.columns d)
  rows := rows.map fun row => j.names.map row.1 ++ row.2

/-- Whether the objects that a mapper makes of a result hold under each of its keys what the column
of the key holds, as the database gives it and as its kind is read. -/
def MainSurvives (j : WholeJoin) (x : Session δ) (m : Mapper) : Prop :=
  ∀ rows records objects, (∀ row ∈ rows, row.2.length = j.others.length) →
    x.rows (j.answer x.database.dialect rows) = .ok records →
    m.objects (records.map .record) = .ok objects →
    List.Forall₂ (fun row object => ∀ key ∈ m.codec.keys, ∃ v w,
      x.rows (.single (j.mainColumn (toSnake key)) (row.1 (toSnake key))) = .ok [[(toSnake key, v)]] ∧
        m.codec.decode (toSnake key) v = .ok w ∧ Record.get? key object = some w) rows objects

/-! ## Rows -/

/-- There is a label for each column. -/
theorem length_labels (j : WholeJoin) (d : Dialect) :
    (j.labels d).length = j.names.length + j.others.length := by
  rw [labels, Dialect.length_labels, sources, List.length_append, List.length_map, List.length_map]

/-- The names of the columns are their labels. -/
theorem names_columns (j : WholeJoin) (d : Dialect) : (j.columns d).map Column.name = j.labels d := by
  rw [columns, List.map_map]
  apply List.map_fst_zip
  rw [length_labels, List.length_append, List.length_map]

/-- The row of an answer by label. -/
def record (j : WholeJoin) (d : Dialect) (held : String → Value) (rest : List Value) : Record :=
  Record.ofList ((j.labels d).zip (j.names.map held ++ rest))

/-- What belongs to a label that is the name of a column of the main table belongs to this column,
if nothing takes its place. -/
theorem eq_of_mem_zip {α : Type} {g : String → α} {rest : List α} {f : String × α} (hname : name ∈ j.names)
    (hplain : '.' ∉ name.toList) (hothers : d = .sqlite → name ∉ j.others.map Column.name)
    (hf : f ∈ (j.labels d).zip (j.names.map g ++ rest)) (hlabel : f.1 = name) : f.2 = g name := by
  have hsources : (j.others.map fun c => (j.otherTable, c.name)).map Prod.snd = j.others.map Column.name := by
    rw [List.map_map]
    rfl
  rw [← hsources] at hothers
  exact Dialect.eq_of_mem_zip_labels hplain hname hothers hf hlabel

/-- What a record has under a name of the main table. -/
theorem get?_record (hname : name ∈ j.names) (hplain : '.' ∉ name.toList)
    (hothers : d = .sqlite → name ∉ j.others.map Column.name) (held : String → Value) (rest : List Value) :
    Record.get? name (j.record d held rest) = some (held name) := by
  obtain ⟨f, hf, hlabel⟩ := Dialect.mem_zip_labels (g := held) d hname
  exact Record.get?_ofList_append [] (List.mem_map.mpr ⟨f, hf, hlabel⟩)
    fun f hf => eq_of_mem_zip hname hplain hothers hf

/-- The name of a column of the main table is the label of no other column, if nothing takes its
place. -/
theorem mainColumn_mem_columns (hname : name ∈ j.names) (hplain : '.' ∉ name.toList)
    (hothers : d = .sqlite → name ∉ j.others.map Column.name) :
    j.mainColumn name ∈ j.columns d ∧ ∀ c ∈ j.columns d, c.name = name → c = j.mainColumn name := by
  constructor
  · obtain ⟨f, hf, hlabel⟩ := Dialect.mem_zip_labels (g := j.mainColumn) d hname
    refine List.mem_map.mpr ⟨f, hf, ?_⟩
    rw [eq_of_mem_zip hname hplain hothers hf hlabel, hlabel]
    rfl
  · intro c hc hlabel
    obtain ⟨f, hf, rfl⟩ := List.mem_map.mp hc
    rw [eq_of_mem_zip hname hplain hothers hf hlabel, show f.1 = name from hlabel]
    rfl

/-- On SQLite a column of the other table takes the place of one of the main table. -/
theorem get?_record_shared (hname : name ∈ j.others.map Column.name) (held : String → Value) (v : Value) :
    Record.get? name (j.record .sqlite held (List.replicate j.others.length v)) = some v := by
  have hlabels : j.labels .sqlite = j.names ++ j.others.map Column.name := by
    rw [labels, Dialect.labels_sqlite, sources, List.map_append, List.map_map, List.map_map]
    simp [Function.comp_def]
  rw [record, hlabels, List.zip_append (by rw [List.length_map])]
  apply Record.get?_ofList_append _
  · rw [List.map_fst_zip (by rw [List.length_map, List.length_replicate])]
    exact hname
  · intro f hf _
    exact List.eq_of_mem_replicate (List.of_mem_zip hf).2

end WholeJoin

/-! ## A relation without keys -/

namespace Mapper

variable {c : Codec} {name : String} {relation : Relation}

/-- The mapper of objects with one relation that declares no keys. -/
def withWhole (c : Codec) (name : String) (relation : Relation) : Mapper where
  codec := c
  passOn := false
  related := [⟨name, relation, ⟨[], [], [], c.utc, c.parseJson⟩⟩]

/-- A mapper with one whole relation. -/
theorem make_withWhole (c : Codec) (name : String) (hkeys : relation.declaredKeys = []) :
    make c [] [(name, relation)] = .ok (withWhole c name relation) := by
  have hcodec := Codec.make_plain [] List.nodup_nil c.utc c.parseJson
  have hread : readRelated c [(name, relation)] = .ok (withWhole c name relation).related := by
    rw [readRelated, hkeys]
    rw [List.map_nil] at hcodec
    rw [hcodec]
    rfl
  have honce : ([(name, relation)].eraseDupsBy fun a b => a.1 == b.1) = [(name, relation)] := rfl
  rw [make, honce, hread]
  rfl

/-- Each row makes an object, in which the related one is nested. -/
theorem objects_withWhole (hkind : relation.kind ≠ .hasMany) (rows : List Value) :
    (withWhole c name relation).objects rows = rows.mapM fun row =>
      (withWhole c name relation).mainObject row >>= fun object =>
        (withWhole c name relation).nest row object (withWhole c name relation).related := by
  have hsingle : (withWhole c name relation).hasChildren = false := by simp [hasChildren, withWhole, hkind]
  rw [objects, hsingle, if_neg Bool.false_ne_true]

/-- An object of a row is what the main table's columns give, with the related object put in its
place. -/
theorem of_objects_withWhole {rows : List Value} {results : List Record} (hkind : relation.kind ≠ .hasMany)
    (h : (withWhole c name relation).objects rows = .ok results) :
    List.Forall₂ (fun row object => ∃ own child, c.toObject row "" = .ok own ∧
      object = own.set name (Value.ofOption .record child)) rows results := by
  rw [objects_withWhole hkind] at h
  refine (mapM_eq_ok_iff.mp h).imp ?_
  intro row object hobject
  obtain ⟨own, hown, hnest⟩ := bind_eq_ok.mp hobject
  obtain ⟨decoded, hdecoded, hsame⟩ := bind_eq_ok.mp hown
  obtain rfl : decoded = own := Except.ok.inj hsame
  obtain ⟨child, -, hplaced⟩ := bind_eq_ok.mp hnest
  exact ⟨decoded, child, hdecoded, (Except.ok.inj hplaced).symm⟩

/-- Small values can be collected into a related object. -/
theorem exists_collect (m : Mapper) (r : Related) (start : Record) {fields : List (String × Value)}
    (h : ∀ f ∈ fields, f.2.IsSmall) : ∃ object, m.collect r start fields = .ok object := by
  induction fields generalizing start with
  | nil => exact ⟨start, rfl⟩
  | cons f rest ih =>
    obtain ⟨hf, hrest⟩ := List.forall_mem_cons.mp h
    rw [collect]
    cases m.ownName? r f.1 with
    | none => exact ih start hrest
    | some own =>
      obtain ⟨w, hw⟩ := r.codec.exists_decode_small (toSnake own) hf
      exact exists_bind_eq_ok hw (ih _ hrest)

/-- The related objects in rows of small values can be read. -/
theorem exists_relatedObject?_small (m : Mapper) (r : Related) {fields : Record}
    (h : ∀ f ∈ fields, f.2.IsSmall) : ∃ child, m.relatedObject? (.record fields) r = .ok child := by
  have hfields : ∃ object, m.relatedFields r (.record fields) = .ok object := by
    rw [relatedFields]
    split_ifs
    · exact exists_collect m r [] h
    · exact r.codec.exists_decodeKeys_small r.relation.aliasStart r.codec.keys h
  obtain ⟨object, hobject⟩ := hfields
  exact ⟨_, map_eq_ok.mpr ⟨object, hobject, rfl⟩⟩

/-- A row of small values makes an object. -/
theorem exists_objects_small (c : Codec) (name : String) {row : Record} (hkeys : relation.declaredKeys = [])
    (hkind : relation.kind ≠ .hasMany) (h : ∀ f ∈ row, f.2.IsSmall) :
    ∃ object, (withWhole c name relation).objects [.record row] = .ok [object] := by
  obtain ⟨own, hown⟩ := c.exists_decodeKeys_small "" c.keys h
  have hmain : (withWhole c name relation).mainObject (.record row) = .ok own :=
    bind_eq_ok.mpr ⟨own, hown, rfl⟩
  obtain ⟨fields, hfields⟩ := exists_collect (withWhole c name relation)
    ⟨name, relation, ⟨[], [], [], c.utc, c.parseJson⟩⟩ [] h
  have hchild : ∃ child, (withWhole c name relation).relatedObject? (.record row)
      ⟨name, relation, ⟨[], [], [], c.utc, c.parseJson⟩⟩ = .ok child := by
    rw [relatedObject?, relatedFields, hkeys, List.isEmpty_nil, if_pos rfl]
    show ∃ child, (((withWhole c name relation).collect _ [] row).map _ : Except Error _) = .ok child
    rw [hfields]
    exact ⟨_, rfl⟩
  obtain ⟨child, hchild⟩ := hchild
  refine ⟨own.set name (Value.ofOption .record child), ?_⟩
  rw [objects_withWhole hkind, mapM_eq_ok_iff]
  refine .cons (bind_eq_ok.mpr ⟨own, hmain, ?_⟩) .nil
  exact bind_eq_ok.mpr ⟨child, hchild, rfl⟩

end Mapper

/-! ## Main objects -/

namespace WholeJoin

open Mapper (withWhole)

variable {x : Session δ} {c : Codec} {name : String} {relation : Relation} {j : WholeJoin}

/-- The records of an answer are its rows as they are shaped. -/
theorem rows_answer_iff {rows : List ((String → Value) × List Value)} {records : List Record}
    (hlength : ∀ row ∈ rows, row.2.length = j.others.length) :
    x.rows (j.answer x.database.dialect rows) = .ok records ↔
      List.Forall₂ (fun row record => x.Shapes (j.columns x.database.dialect)
        (j.record x.database.dialect row.1 row.2) record) rows records := by
  have hwidth : ∀ row ∈ (j.answer x.database.dialect rows).rows,
      row.length = (j.columns x.database.dialect).length := by
    intro values hvalues
    obtain ⟨row, hrow, rfl⟩ := List.mem_map.mp hvalues
    rw [← List.length_map (f := Column.name), names_columns, length_labels, List.length_append,
      List.length_map, hlength row hrow]
  unfold WholeJoin.record
  rw [Session.rows_eq_ok_iff rfl hwidth, ← names_columns]
  exact List.forall₂_map_left_iff

/-- Fields of the main object are as they should be where nothing takes their places. -/
theorem mainSurvives (hkeys : c.keys.Nodup) (hkind : relation.kind ≠ .hasMany)
    (hnames : j.names = c.columnNames)
    (hplain : ∀ column ∈ j.names, '.' ∉ column.toList) (hname : name ∉ c.keys)
    (hothers : x.database.dialect = .sqlite → ∀ other ∈ j.others, other.name ∉ j.names) :
    j.MainSurvives x (withWhole c name relation) := by
  intro rows records results hlength hrows hresults
  have hobjects := List.forall₂_map_left_iff.mp (Mapper.of_objects_withWhole hkind hresults)
  refine forall₂_trans ?_ ((rows_answer_iff hlength).mp hrows) hobjects
  rintro row record object hshape ⟨own, child, hown, rfl⟩ key hkey
  have hcolumn : toSnake key ∈ j.names := hnames ▸ List.mem_map_of_mem hkey
  have hfree : x.database.dialect = .sqlite → toSnake key ∉ j.others.map Column.name := by
    intro hsqlite hmem
    obtain ⟨other, hother, hsame⟩ := List.mem_map.mp hmem
    exact hothers hsqlite other hother (hsame ▸ hcolumn)
  have hheld := get?_record hcolumn (hplain _ hcolumn) hfree row.1 row.2
  obtain ⟨hmem, hsame⟩ := mainColumn_mem_columns hcolumn (hplain _ hcolumn) hfree
  obtain ⟨v, hsingle, hv⟩ := hshape.exists_single hmem hsame hheld
  obtain ⟨w, hw, hdecoded⟩ := Codec.get?_decodeKeys hkeys hown hkey hv
  refine ⟨v, w, hsingle, hdecoded, ?_⟩
  have hne : key ≠ name := fun heq => hname (heq ▸ hkey)
  rw [Record.get?_set_of_ne hne, hw]

/-- What is said of all results is true of one whose only row is fetched as a record of small
values. -/
theorem MainSurvives.of_small (h : j.MainSurvives x (withWhole c name relation))
    (hkeys : relation.declaredKeys = []) (hkind : relation.kind ≠ .hasMany) {held : String → Value}
    {record : Record} {v : Value} (hsmall : ∀ f ∈ record, f.2.IsSmall)
    (hshape : x.Shapes (j.columns x.database.dialect)
      (j.record x.database.dialect held (List.replicate j.others.length v)) record) :
    ∃ own child, c.toObject (.record record) "" = .ok own ∧ ∀ key ∈ c.keys, ∃ u w,
      x.rows (.single (j.mainColumn (toSnake key)) (held (toSnake key))) = .ok [[(toSnake key, u)]] ∧
        c.decode (toSnake key) u = .ok w ∧
        Record.get? key (own.set name (Value.ofOption .record child)) = some w := by
  obtain ⟨object, hobject⟩ := Mapper.exists_objects_small c name hkeys hkind hsmall
  have hlength : ∀ row ∈ [(held, List.replicate j.others.length v)], row.2.length = j.others.length :=
    List.forall_mem_singleton.mpr List.length_replicate
  have hall := h _ [record] [object] hlength ((rows_answer_iff hlength).mpr (.cons hshape .nil)) hobject
  obtain ⟨own, child, hown, rfl⟩ := (List.forall₂_cons.mp (Mapper.of_objects_withWhole hkind hobject)).1
  exact ⟨own, child, hown, (List.forall₂_cons.mp hall).1⟩

/-- What holds of all values of a row holds of those of its record. -/
theorem mem_record (j : WholeJoin) (d : Dialect) {held : String → Value} {v : Value} {p : Value → Prop}
    (hheld : ∀ column, p (held column)) (hv : p v) :
    ∀ f ∈ j.record d held (List.replicate j.others.length v), p f.2 := by
  apply Record.forall_mem_ofList
  intro f hf
  obtain hown | hother := List.mem_append.mp (List.of_mem_zip hf).2
  · obtain ⟨column, -, hsame⟩ := List.mem_map.mp hown
    exact hsame ▸ hheld column
  · rw [List.eq_of_mem_replicate hother]
    exact hv

/-- A relation takes the place of a field of its name. -/
theorem not_mainSurvives_of_named (hkeys : relation.declaredKeys = []) (hkind : relation.kind ≠ .hasMany)
    (hname : name ∈ c.keys) : ¬j.MainSurvives x (withWhole c name relation) := by
  intro h
  -- A row of ones has a field that is neither NULL nor an object, so it cannot be what the relation leaves.
  have hones := j.mem_record x.database.dialect (p := Value.IsOne) (fun _ => .inl rfl) (.inl rfl)
  obtain ⟨record, hshape, hone⟩ := x.exists_shapes_one (j.columns x.database.dialect) hones
  obtain ⟨own, child, -, hall⟩ := h.of_small hkeys hkind (fun f hf => .inr (hone f hf)) hshape
  obtain ⟨u, w, hsingle, hw, hget⟩ := hall name hname
  obtain ⟨w', hw', hnull, hobject⟩ := c.exists_decode_one (toSnake name) (Session.isOne_of_rows hsingle)
  obtain rfl : w = w' := Except.ok.inj (hw.symm.trans hw')
  rw [Record.get?_set_self] at hget
  cases child with
  | none => exact hnull (Option.some.inj hget).symm
  | some fields => exact hobject fields (Option.some.inj hget).symm

/-- On SQLite a column of the other table is read in the place of one of the main table. -/
theorem not_mainSurvives_of_shared (hdialect : x.database.dialect = .sqlite)
    (hkeys : relation.declaredKeys = []) (hnodup : c.keys.Nodup) (hkind : relation.kind ≠ .hasMany)
    (hname : name ∉ c.keys) {other : Column} (hother : other ∈ j.others)
    (hshared : other.name ∈ c.columnNames) : ¬j.MainSurvives x (withWhole c name relation) := by
  intro h
  -- In a row of nothing but NULL in the main table and of ones in the other, the shared column reads as one.
  obtain ⟨key, hkey, hcolumn⟩ := List.mem_map.mp hshared
  have hsmall := j.mem_record .sqlite (p := Value.IsSmall) (fun _ => .inl rfl) (.inr (.inl rfl))
  have hshape : x.Shapes (j.columns x.database.dialect) (j.record x.database.dialect (fun _ => .null)
      (List.replicate j.others.length (.int 1))) (j.record .sqlite (fun _ => .null)
      (List.replicate j.others.length (.int 1))) := by
    rw [hdialect]
    exact (Session.shapes_iff_of_sqlite hdialect).mpr rfl
  obtain ⟨own, child, hown, hall⟩ := h.of_small hkeys hkind hsmall hshape
  obtain ⟨u, w, hsingle, hw, hget⟩ := hall key hkey
  have hnull : u = .null := by
    have hheld := (Session.shapes_iff_of_sqlite hdialect).mp (Session.rows_single_iff.mp hsingle)
    exact (Prod.mk.inj (List.cons.inj hheld).1).2
  rw [hnull, Codec.decode_null] at hw
  have hmem : toSnake key ∈ j.others.map Column.name := hcolumn ▸ List.mem_map_of_mem hother
  have htaken := get?_record_shared hmem (fun _ => .null) (.int 1)
  obtain ⟨w', hw', hdecoded⟩ := Codec.get?_decodeKeys hnodup hown hkey htaken
  obtain ⟨w'', hw'', hgiven, -⟩ := c.exists_decode_one (toSnake key) (v := .int 1) (.inl rfl)
  have hne : key ≠ name := fun heq => hname (heq ▸ hkey)
  rw [Record.get?_set_of_ne hne, hw'] at hget
  rw [hdecoded] at hw''
  apply hgiven
  rw [← Except.ok.inj hw'', Option.some.inj hget, ← Except.ok.inj hw]

/-- The result of a select with one relation that declares no keys. -/
def ofRelation (r : Repository) (relation : Relation) (types : String → Int × Int) (others : List Column) :
    WholeJoin :=
  ⟨r.table.display, r.codec.columnNames, types, relation.table.display, others⟩

/-- Beside a table that is brought whole, all fields of the main objects are as they should be
exactly when none is called like the relation and, on SQLite, no column of the table is called like
one of them. -/
theorem mainSurvives_iff {declaration : Declaration} {r : Repository} {s : Select} {m : Mapper}
    (types : String → Int × Int) (others : List Column)
    (hr : Repository.ofDeclaration x.settings declaration = .ok r) (hcolumns : s.columns = [])
    (hrelations : s.relations r = [(name, relation)]) (hkeys : relation.declaredKeys = [])
    (hkind : relation.kind ≠ .hasMany) (hm : Mapper.make r.codec s.columns (s.relations r) = .ok m)
    (hplain : ∀ column ∈ r.codec.columnNames, '.' ∉ column.toList) :
    (ofRelation r relation types others).MainSurvives x m ↔ name ∉ r.codec.keys ∧
      (x.database.dialect = .sqlite → ∀ other ∈ others, other.name ∉ r.codec.columnNames) := by
  obtain ⟨hnodup, -, -⟩ := Repository.of_ofDeclaration hr
  rw [hcolumns, hrelations, Mapper.make_withWhole r.codec name hkeys] at hm
  obtain rfl := Except.ok.inj hm
  constructor
  · intro h
    have hname : name ∉ r.codec.keys := fun hname => not_mainSurvives_of_named hkeys hkind hname h
    refine ⟨hname, ?_⟩
    intro hdialect other hother hshared
    exact not_mainSurvives_of_shared hdialect hkeys hnodup hkind hname hother hshared h
  · rintro ⟨hname, hothers⟩
    exact mainSurvives hnodup hkind rfl hplain hname hothers

/-- Chapters with their novels, of which no keys are declared. -/
def storyline : Declaration where
  table := .text "chapter"
  keys := .list [.text "id", .text "title"]
  relations := .record [("novel", .record [("table", .text "novel"), ("local_key", .text "novelId"),
    ("foreign_key", .text "id"), ("type", .text "belongsTo")])]

/-- A relation to novels with all their columns. -/
def novelWhole : Relation := ⟨.text "novel", .text "novelId", .text "id", .belongsTo, none, none⟩

/-- The repository of chapters with whole novels. -/
def chaptersWhole : Repository where
  table := .text "chapter"
  codec := ⟨["id", "title"], [], [], true, true⟩
  relations := [("novel", novelWhole)]
  printQuery := .bool false
  options := .proper {}

/-- Chapters with novels that have an id and a title as well. -/
def titled : WholeJoin :=
  ofRelation chaptersWhole novelWhole (fun _ => (253, 0)) [⟨"id", 253, 0⟩, ⟨"title", 253, 0⟩]

/-- A database whose server or file does not matter. -/
def idle (engine : Engine) : Session Unit := ⟨⟨engine, {}⟩, ⟨fun _ => return {}⟩⟩

/-- The declaration of chapters is accepted. -/
theorem ofDeclaration_storyline (engine : Engine) :
    Repository.ofDeclaration (idle engine).settings storyline = .ok chaptersWhole := rfl

/-- Read from a server, a chapter keeps its title beside that of its novel. -/
theorem mainSurvives_server :
    Select.relations chaptersWhole { related := ["novel"] } = [("novel", novelWhole)] ∧
      titled.MainSurvives (idle .mysql) (withWhole chaptersWhole.codec "novel" novelWhole) := by
  have hrelations : Select.relations chaptersWhole { related := ["novel"] } = [("novel", novelWhole)] := rfl
  have hiff := mainSurvives_iff (fun _ => (253, 0)) titled.others
    (ofDeclaration_storyline .mysql) rfl hrelations rfl (by decide) rfl (by decide)
  exact ⟨hrelations, hiff.mpr ⟨by decide, fun h => nomatch h⟩⟩

/-- A chapter read from a file has the title of its novel, and no novel. -/
theorem not_mainSurvives_file :
    (idle (.sqlite ":memory:")).rows (titled.answer .sqlite
        [(fun column => if column = "id" then .int 5 else .text "ch", [.int 1, .text "N"])]) =
          .ok [[("id", .int 1), ("title", .text "N")]] ∧
      (withWhole chaptersWhole.codec "novel" novelWhole).objects
        [.record [("id", .int 1), ("title", .text "N")]] =
          .ok [[("id", .int 1), ("title", .text "N"), ("novel", .null)]] ∧
      ¬titled.MainSurvives (idle (.sqlite ":memory:"))
        (withWhole chaptersWhole.codec "novel" novelWhole) := by
  refine ⟨rfl, rfl, ?_⟩
  have hother : ⟨"id", 253, 0⟩ ∈ titled.others := by decide
  exact not_mainSurvives_of_shared rfl rfl (by decide) (by decide) (by decide) hother (by decide)

end WholeJoin

end Quarry
