import Quarry.Proofs.Repository.Filtered
import Quarry.Proofs.Row.Held

/-!
# Batches of rows

The text of an insert shows a grid: the columns that are named, and row by row what is written into
them, a bound value or `DEFAULT`. The grids of the two dialects say the same. Where one dialect
writes `DEFAULT` in every row, the other leaves the column out, and everything else stands in the
same order (`Insert.batch_is_rows`).

The first row of a batch decides for all of them which columns are left to the database. As long as
all rows leave the same columns, which they always do unless objects may say what the database would
assign, nobody can tell: the grid is made of the rows that the objects would be inserted with one by
one.
-/

set_option autoImplicit false

namespace Quarry

open Sql (Dialect Fragment Piece Statement)

variable {d : Dialect} {r : Repository}

namespace Insert

/-! ## Grids -/

/-- What an insert writes: the columns it names, and for each row what stands in them. A cell
without a value says `DEFAULT`. -/
structure Grid where
  columns : List String
  rows : List (List (Option Value))

namespace Grid

/-- The text of a cell. -/
def cellText (d : Dialect) : Option Value → String
  | none => "DEFAULT"
  | some _ => d.placeholder

/-- The text of a row. -/
def rowText (d : Dialect) (cells : List (Option Value)) : String :=
  "(" ++ ", ".intercalate (cells.map (cellText d)) ++ ")"

/-- The values of all cells, row by row. -/
def params (g : Grid) : List Value := g.rows.flatMap (List.filterMap id)

/-- The insert that writes a grid. -/
def statement (d : Dialect) (table : String) (g : Grid) : Statement where
  sql := "INSERT INTO " ++ d.quoteName table ++ " (" ++ ", ".intercalate (g.columns.map d.quoteName) ++
    ") VALUES " ++ ", ".intercalate (g.rows.map (rowText d))
  params := g.params

/-- Whether all rows say `DEFAULT` at a place. -/
def isLeft (g : Grid) (i : Nat) : Bool := g.rows.all fun cells => cells[i]?.any Option.isNone

/-- What a list has at the places that are not left to the database in all rows. -/
def kept {α : Type} (g : Grid) (xs : List α) : List α :=
  (xs.zipIdx.filter fun x => !g.isLeft x.2).map (·.1)

/-- A grid without the columns that say `DEFAULT` in every row. -/
def trimmed (g : Grid) : Grid := ⟨g.kept g.columns, g.rows.map g.kept⟩

end Grid

/-- A stored form as it is bound: what was not given is NULL. -/
def given (v : Value) : Value := if v.isUnset then .null else v

/-- What is written into a column of a row. -/
def cellOf (first row : Record) (column : String) : Option Value :=
  if isDefaulted first column then none else some (given (row.getD column))

/-- The grid of encoded rows, the first of which decides which columns are left to the database. -/
def Grid.ofRows (d : Dialect) (columns : List String) (first : Record) (rows : List Record) : Grid :=
  ⟨written d columns first, rows.map fun row => (written d columns first).map (cellOf first row)⟩

variable {columns : List String} {column table : String} {first row : Record} {rows : List Record}

/-- A cell of an insert is the default or a slot. -/
theorem cell_eq (first row : Record) (column : String) :
    cell first row column = match cellOf first row column with
      | none => [.word "DEFAULT"]
      | some v => [.slot v] := by
  unfold cell cellOf given
  cases isDefaulted first column with
  | true => rfl
  | false => cases row.getD column <;> rfl

/-- The text of a cell. -/
theorem sql_cell (first row : Record) (column : String) :
    Fragment.sql d (cell first row column) = Grid.cellText d (cellOf first row column) := by
  rw [cell_eq]
  cases cellOf first row column <;> simp [Sql.sql_cons, Sql.sql_nil, Piece.chars, Grid.cellText]

/-- The parameter of a cell, if it has one. -/
theorem params_cell (first row : Record) (column : String) :
    Fragment.params (cell first row column) = (cellOf first row column).toList := by
  rw [cell_eq]
  cases cellOf first row column <;> rfl

/-- The text of a row. -/
theorem sql_rowFragment (first row : Record) (columns : List String) :
    Fragment.sql d (rowFragment first columns row) =
      Grid.rowText d (columns.map (cellOf first row)) := by
  simp [rowFragment, Fragment.parenthesized, Sql.sql_cons, Sql.sql_append, Sql.sql_joined, Sql.sql_nil,
    Piece.chars, Grid.rowText, Function.comp_def, sql_cell, String.append_assoc]

/-- The parameters of a row. -/
theorem params_rowFragment (first row : Record) (columns : List String) :
    Fragment.params (rowFragment first columns row) =
      (columns.map (cellOf first row)).filterMap id := by
  simp [rowFragment, Fragment.parenthesized, Sql.params_joined, List.flatMap_map, params_cell,
    List.filterMap_eq_flatMap_toList]

/-- An insert writes the grid of its rows. -/
theorem statement_fragment (d : Dialect) (table : String) (columns : List String) (first : Record)
    (rows : List Record) :
    (fragment table (written d columns first) first rows).statement d =
      (Grid.ofRows d columns first rows).statement d table := by
  have quoteName_eq (name : String) : String.ofList (d.quoteChars name.toList) = d.quoteName name := rfl
  have hname (name : String) : Fragment.sql d [.name name] = d.quoteName name := by
    simp [Sql.sql_cons, Sql.sql_nil, Piece.chars, Dialect.quoteName]
  unfold Fragment.statement Grid.statement
  congr 1
  · simp [fragment, Sql.sql_cons, Sql.sql_append, Sql.sql_joined, Piece.chars, hname, sql_rowFragment,
      Grid.ofRows, Function.comp_def, quoteName_eq, String.append_assoc]
  · simp [fragment, Sql.params_joined, List.flatMap_map, params_rowFragment, Grid.params, Grid.ofRows]

/-! ## The columns of the two dialects -/

/-- Members that are selected by their places are selected by what they are. -/
theorem filter_zipIdx {α β : Type} {p : Nat → Bool} {q : α → Bool} (f : α → β) {xs : List α}
    {n : Nat} (h : ∀ i x, xs[i]? = some x → p (n + i) = q x) :
    (((xs.map f).zipIdx n).filter fun x => p x.2).map (·.1) = (xs.filter q).map f := by
  induction xs generalizing n with
  | nil => rfl
  | cons x rest ih =>
    have hx : p n = q x := h 0 x rfl
    have hrest := ih (n := n + 1) fun i y hy => by
      rw [show n + 1 + i = n + (i + 1) by omega]
      exact h (i + 1) y hy
    rw [List.map_cons, List.zipIdx_cons, List.filter_cons, List.filter_cons]
    dsimp only
    rw [hx]
    cases q x with
    | true =>
      simp only [if_true, List.map_cons]
      rw [hrest]
    | false =>
      simp only [Bool.false_eq_true, if_false]
      exact hrest

/-- A column is left to the database in all rows if the first row leaves it. -/
theorem isLeft_ofRows (hrows : rows ≠ []) {i : Nat} (hcolumn : columns[i]? = some column) :
    (Grid.ofRows .mysql columns first rows).isLeft i = isDefaulted first column := by
  have hcell (row : Record) :
      (columns.map (cellOf first row))[i]?.any Option.isNone = isDefaulted first column := by
    rw [List.getElem?_map, hcolumn]
    cases h : isDefaulted first column <;> simp [cellOf, h]
  have hleft : (Grid.ofRows .mysql columns first rows).isLeft i =
      rows.all fun _ => isDefaulted first column := by
    simp only [Grid.isLeft, Grid.ofRows, written, Dialect.hasDefault, if_true, List.all_map,
      Function.comp_def, hcell]
  obtain ⟨row, rest, rfl⟩ := List.exists_cons_of_ne_nil hrows
  rw [hleft]
  cases isDefaulted first column <;> simp

/-- Of a grid the written columns are kept. -/
theorem kept_ofRows {α : Type} (hrows : rows ≠ []) (f : String → α) :
    (Grid.ofRows .mysql columns first rows).kept (columns.map f) =
      (written .sqlite columns first).map f :=
  filter_zipIdx (p := fun i => !(Grid.ofRows .mysql columns first rows).isLeft i)
    (q := fun column => !isDefaulted first column) f fun i column hcolumn => by
      rw [Nat.zero_add, isLeft_ofRows hrows hcolumn]

/-- The insert of a dialect that has no `DEFAULT` leaves the columns out that are left in every
row. -/
theorem trimmed_ofRows (hrows : rows ≠ []) :
    (Grid.ofRows .mysql columns first rows).trimmed = Grid.ofRows .sqlite columns first rows := by
  have hcolumns : (Grid.ofRows .mysql columns first rows).kept columns = written .sqlite columns first := by
    simpa using kept_ofRows hrows id
  have hcells (row : Record) : (Grid.ofRows .mysql columns first rows).kept (columns.map (cellOf first row)) =
      (written .sqlite columns first).map (cellOf first row) := kept_ofRows hrows (cellOf first row)
  unfold Grid.trimmed
  rw [show (Grid.ofRows .mysql columns first rows).columns = columns from rfl, hcolumns,
    show (Grid.ofRows .mysql columns first rows).rows =
      rows.map fun row => columns.map (cellOf first row) from rfl, List.map_map]
  simp only [Function.comp_def, hcells]
  rfl

/-- A column that is left out binds nothing. -/
theorem filterMap_cellOf_written (d : Dialect) (columns : List String) (first row : Record) :
    (written d columns first).filterMap (cellOf first row) = columns.filterMap (cellOf first row) := by
  unfold written
  cases d.hasDefault with
  | true => rfl
  | false =>
    rw [if_neg Bool.false_ne_true, List.filterMap_filter]
    refine List.filterMap_congr fun column _ => ?_
    cases h : isDefaulted first column <;> simp [cellOf, h]

/-- The parameters of a grid are those of its cells, row by row. -/
theorem params_ofRows (d : Dialect) (columns : List String) (first : Record) (rows : List Record) :
    (Grid.ofRows d columns first rows).params =
      rows.flatMap fun row => columns.filterMap (cellOf first row) := by
  simp only [Grid.params, Grid.ofRows, List.flatMap_map, List.filterMap_map, Function.id_comp,
    filterMap_cellOf_written]

/-- Without `DEFAULT` every cell has a value. -/
theorem none_notMem_ofRows {cells : List (Option Value)}
    (h : cells ∈ (Grid.ofRows .sqlite columns first rows).rows) : none ∉ cells := by
  obtain ⟨row, -, rfl⟩ := List.mem_map.mp h
  intro hnone
  obtain ⟨column, hcolumn, hcell⟩ := List.mem_map.mp hnone
  have hgiven : isDefaulted first column = false := by
    simpa using (List.mem_filter.mp hcolumn).2
  simp [cellOf, hgiven] at hcell

/-! ## Rows and batches -/

/-- Whether rows leave the same columns to the database. -/
def SameGaps (columns : List String) (rows : List Record) : Prop :=
  ∀ a ∈ rows, ∀ b ∈ rows, ∀ column ∈ columns, isDefaulted a column = isDefaulted b column

/-- What a grid has to do with the objects that it inserts and with the rows that these were encoded
to: row by row it writes what was encoded into the columns that it names, and into no column that
the database assigns unless `force` is given. If the rows leave the same columns, each row of the
grid is what the insert of its object alone would write into the same columns. -/
structure Grid.Writes (d : Dialect) (r : Repository) (force : Bool) (table : String) (items : List Value)
    (rows : List Record) (g : Grid) : Prop where
  stored : List.Forall₂ (fun row cells => List.Forall₂ (fun column cell =>
    cell = none ∨ cell = some (given (row.getD column))) g.columns cells) rows g.rows
  unassigned : force = false → ∀ cells ∈ g.rows, List.Forall₂ (fun column cell =>
    r.codec.isAutoSet column = true → cell = none) g.columns cells
  singly : SameGaps r.codec.columnNames rows → List.Forall₂ (fun item cells =>
    build d r (.list [item]) force = .ok (some (Grid.statement d table ⟨g.columns, [cells]⟩))) items g.rows

/-- The written columns are some of all. -/
theorem written_subset (d : Dialect) (columns : List String) (first : Record) :
    written d columns first ⊆ columns := by
  unfold written
  cases d.hasDefault with
  | true => exact List.Subset.refl columns
  | false => exact fun _ hcolumn => (List.mem_filter.mp hcolumn).1

/-- Which columns are written depends on what is left to the defaults. -/
theorem written_congr (h : ∀ column ∈ columns, isDefaulted row column = isDefaulted first column) :
    written d columns row = written d columns first := by
  unfold written
  cases d.hasDefault with
  | true => rfl
  | false => exact List.filter_congr fun column hcolumn => by rw [h column hcolumn]

/-- A row that leaves the columns which the first row of its batch leaves is written the same by
itself. -/
theorem ofRows_singleton (h : ∀ column ∈ columns, isDefaulted row column = isDefaulted first column) :
    Grid.ofRows d columns row [row] =
      ⟨written d columns first, [(written d columns first).map (cellOf first row)]⟩ := by
  unfold Grid.ofRows
  rw [written_congr h, List.map_singleton]
  have hcells : (written d columns first).map (cellOf row row) =
      (written d columns first).map (cellOf first row) :=
    List.map_congr_left fun column hcolumn => by
      rw [cellOf, cellOf, h column (written_subset d columns first hcolumn)]
  rw [hcells]

variable {force : Bool} {item : Value} {items : List Value} {rest : List Record}

/-- The insert of one object. -/
theorem build_singleton (hrow : r.codec.toRow item (!force) false = .ok row)
    (htable : Sql.identifier r.table = .ok table) (hwritten : written d r.codec.columnNames row ≠ []) :
    build d r (.list [item]) force =
      .ok (some ((Grid.ofRows d r.codec.columnNames row [row]).statement d table)) := by
  refine build_eq_some_iff.mpr ⟨rfl, [item], row, [], table, rfl, ?_, hwritten, htable, ?_⟩
  · rw [List.mapM_cons, hrow]
    rfl
  · exact (statement_fragment d table r.codec.columnNames row [row]).symm

/-- Without `force` exactly the columns are left to the database that it assigns. -/
theorem isDefaulted_toRow (hforce : force = false) (hrow : r.codec.toRow item (!force) false = .ok row)
    (hcolumn : column ∈ r.codec.columnNames) : isDefaulted row column = r.codec.isAutoSet column := by
  subst hforce
  exact Codec.isUnset_toRow hrow hcolumn

/-- Rows of one request have the same gaps, unless auto-set values are forced. -/
theorem sameGaps_toRow (hforce : force = false)
    (hrows : items.mapM (fun o => r.codec.toRow o (!force) false) = .ok rows) :
    SameGaps r.codec.columnNames rows := by
  intro a ha b hb column hcolumn
  obtain ⟨itemA, -, hitemA⟩ := (mem_iff_of_mapM_eq_ok hrows).mp ha
  obtain ⟨itemB, -, hitemB⟩ := (mem_iff_of_mapM_eq_ok hrows).mp hb
  rw [isDefaulted_toRow hforce hitemA hcolumn, isDefaulted_toRow hforce hitemB hcolumn]

/-- The grid of encoded rows writes them. -/
theorem writes_ofRows (hrows : items.mapM (fun o => r.codec.toRow o (!force) false) = .ok (first :: rest))
    (htable : Sql.identifier r.table = .ok table) (hwritten : written d r.codec.columnNames first ≠ []) :
    Grid.Writes d r force table items (first :: rest)
      (Grid.ofRows d r.codec.columnNames first (first :: rest)) where
  stored := by
    refine List.forall₂_map_right_iff.mpr (List.forall₂_same.mpr fun row _ => ?_)
    refine List.forall₂_map_right_iff.mpr (List.forall₂_same.mpr fun column _ => ?_)
    cases h : isDefaulted first column with
    | true => exact .inl (by rw [cellOf, h]; rfl)
    | false => exact .inr (by rw [cellOf, h]; rfl)
  unassigned := by
    intro hforce cells hcells
    obtain ⟨row, -, rfl⟩ := List.mem_map.mp hcells
    refine List.forall₂_map_right_iff.mpr (List.forall₂_same.mpr fun column hcolumn hauto => ?_)
    obtain ⟨_, -, hfirst⟩ := (mem_iff_of_mapM_eq_ok hrows).mp List.mem_cons_self
    have hleft := isDefaulted_toRow hforce hfirst (written_subset _ _ _ hcolumn)
    rw [cellOf, hleft, hauto]
    rfl
  singly := by
    intro hsame
    have hall := List.Forall₂.flip (mapM_eq_ok_iff.mp hrows)
    have hmem := (List.forall₂_and_left (first :: rest) items).mpr ⟨fun _ => id, hall⟩
    refine List.forall₂_map_right_iff.mpr (List.Forall₂.flip (hmem.imp ?_))
    rintro row item ⟨hrow, hitem⟩
    have hgaps : ∀ column ∈ r.codec.columnNames, isDefaulted row column = isDefaulted first column :=
      hsame row hrow first List.mem_cons_self
    have halone := build_singleton hitem htable (d := d) (by rwa [written_congr hgaps])
    rwa [ofRows_singleton hgaps] at halone

/-- A batch is not empty if it is taken for true. -/
theorem items_ne_nil {objects : Value} (h : objects.isTrue = true) (hitems : objects.items = .ok items) :
    items ≠ [] := by
  rintro rfl
  cases objects <;> simp_all [Value.items, Value.isTrue, misfit]

/-- Objects that are built have a statement. -/
theorem exists_of_build {objects : Value} {built : Option Statement} (h : objects.isTrue = true)
    (hbuilt : build d r objects force = .ok built) : ∃ st, built = some st := by
  cases built with
  | some st => exact ⟨st, rfl⟩
  | none =>
    exfalso
    unfold build at hbuilt
    rw [h] at hbuilt
    obtain ⟨items, hitems, hrest⟩ := bind_eq_ok.mp hbuilt
    obtain ⟨rows, hrows, hnone⟩ := bind_eq_ok.mp hrest
    cases rows with
    | nil => exact items_ne_nil h hitems (List.eq_nil_of_length_eq_zero (length_of_mapM_eq_ok hrows).symm)
    | cons first rest =>
      dsimp only at hnone
      split_ifs at hnone
      · simp [refuse] at hnone
      · simp at hnone

/-- A batch that can be inserted in both dialects is written as one grid. What SQLite writes is the
grid of MySQL without the columns that say `DEFAULT` in every row, all other cells have values, and
so both statements bind the same parameters. In each dialect the grid writes the rows of the batch,
as inserts of one object would if all rows leave the same columns, which they do unless `force` is
given. -/
theorem batch_is_rows {objects : Value} {m s : Option Statement} (hbatch : objects.isTrue = true)
    (hm : build .mysql r objects force = .ok m) (hs : build .sqlite r objects force = .ok s) :
    ∃ items rows table wide narrow, objects.items = .ok items ∧
      items.mapM (fun o => r.codec.toRow o (!force) false) = .ok rows ∧
      Sql.identifier r.table = .ok table ∧
      m = some (wide.statement .mysql table) ∧ s = some (narrow.statement .sqlite table) ∧
      wide.params = narrow.params ∧ wide.columns = r.codec.columnNames ∧ narrow = wide.trimmed ∧
      (∀ cells ∈ narrow.rows, none ∉ cells) ∧ (force = false → SameGaps r.codec.columnNames rows) ∧
      Grid.Writes .mysql r force table items rows wide ∧
      Grid.Writes .sqlite r force table items rows narrow := by
  obtain ⟨m, rfl⟩ := exists_of_build hbatch hm
  obtain ⟨s, rfl⟩ := exists_of_build hbatch hs
  obtain ⟨-, items, first, rest, table, hitems, hrows, hwide, htable, rfl⟩ := build_eq_some_iff.mp hm
  obtain ⟨-, items', first', rest', table', hitems', hrows', hnarrow, htable', rfl⟩ :=
    build_eq_some_iff.mp hs
  obtain rfl : items = items' := Except.ok.inj (hitems.symm.trans hitems')
  obtain ⟨rfl, rfl⟩ : first = first' ∧ rest = rest' := by
    simpa using Except.ok.inj (hrows.symm.trans hrows')
  obtain rfl : table = table' := Except.ok.inj (htable.symm.trans htable')
  refine ⟨items, first :: rest, table, Grid.ofRows .mysql r.codec.columnNames first (first :: rest),
    Grid.ofRows .sqlite r.codec.columnNames first (first :: rest), hitems, hrows, htable, ?_, ?_, ?_, rfl,
    ?_, ?_, ?_, writes_ofRows hrows htable hwide, writes_ofRows hrows htable hnarrow⟩
  · rw [statement_fragment]
  · rw [statement_fragment]
  · rw [params_ofRows, params_ofRows]
  · exact (trimmed_ofRows (List.cons_ne_nil first rest)).symm
  · exact fun cells hcells => none_notMem_ofRows hcells
  · exact fun hforce => sameGaps_toRow hforce hrows

/-- Novels, whose numbers the database assigns. -/
def novels : Repository :=
  ⟨.text "novel", ⟨["id", "title", "isDraft"], ["id"], [("isDraft", .boolean)], true, true⟩, [], .bool false,
    .proper {}⟩

/-- Two novels, one with a number that is not its own. -/
def twoNovels : Value :=
  .list [.record [("title", .text "One"), ("isDraft", .bool true)],
    .record [("id", .int 7), ("title", .text "Two")]]

/-- The two novels are inserted by one statement, which is that of their rows. -/
theorem batch_is_rows_two_novels :
    ∃ rows wide narrow,
      build .mysql novels twoNovels false = .ok (some (Grid.statement .mysql "novel" wide)) ∧
      build .sqlite novels twoNovels false = .ok (some (Grid.statement .sqlite "novel" narrow)) ∧
      wide.params = [.text "One", .int 1, .text "Two", .int 0] ∧ narrow = wide.trimmed ∧
      SameGaps novels.codec.columnNames rows ∧
      Grid.Writes .sqlite novels false "novel" [.record [("title", .text "One"), ("isDraft", .bool true)],
        .record [("id", .int 7), ("title", .text "Two")]] rows narrow := by
  have hbatch : twoNovels.isTrue = true := rfl
  have hm : build .mysql novels twoNovels false = .ok _ := rfl
  have hs : build .sqlite novels twoNovels false = .ok _ := rfl
  obtain ⟨items, rows, table, wide, narrow, hitems, -, htable, hm, hs, -, -, htrimmed, -, hsame, -,
    hwrites⟩ := batch_is_rows hbatch hm hs
  obtain rfl := Except.ok.inj hitems
  obtain rfl : "novel" = table := Except.ok.inj htable
  have hparams : [.text "One", .int 1, .text "Two", .int 0] = wide.params :=
    congrArg Statement.params (Option.some.inj hm)
  exact ⟨rows, wide, narrow, congrArg Except.ok hm, congrArg Except.ok hs, hparams.symm, htrimmed, hsame rfl,
    hwrites⟩

end Insert

end Quarry
