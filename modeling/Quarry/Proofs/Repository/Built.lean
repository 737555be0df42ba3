import Quarry.Proofs.Outcome
import Quarry.Proofs.Sql.Writing
import Quarry.Repository.Select
import Quarry.Repository.Write

/-!
# What a statement was built from

Each builder either fails or goes through all of its stages. For every kind of statement there is
one lemma that lists the results of the stages and says how the statement is put together from them,
so that no other proof looks into a builder.

Builders write the text of a statement and, apart from it, its values. What they write is what the
pieces of the statement print and bind (`Select.build_eq`, `Insert.write_eq`), which shows that the
two are in step.
-/

set_option autoImplicit false

namespace Quarry

open Sql (Aggregate Dialect Draft Filter Fragment Piece Statement)

variable {d : Dialect} {r : Repository}

namespace Select

variable {s : Select} {st : Statement}

/-- The tables of a select are fixed. -/
theorem isFixed_fromClause {raw : Bool} {f : Fragment} (h : s.fromClause r = .ok f) :
    f.isFixed raw = true := by
  obtain ⟨table, -, hjoins⟩ := bind_eq_ok.mp h
  obtain ⟨relations, -, hfetched⟩ := bind_eq_ok.mp hjoins
  obtain ⟨fetched, hfetch, hjoined⟩ := bind_eq_ok.mp hfetched
  obtain ⟨joined, hjoin, rfl⟩ := functor_map_eq_ok.mp hjoined
  have hword : (Piece.word " FROM ").isFixed raw = true := rfl
  simp [hword, Sql.Join.isFixed_fragments hfetch, Sql.Join.isFixed_fragments hjoin]

/-- A select is made of its columns, its filter, its tables, its order and its limits. -/
theorem of_fragment {whole : Fragment} (h : s.fragment d r = .ok whole) :
    ∃ columns f tables order limits,
      Sql.columnList (s.owner r) (r.codec.columnNames.map .text) s.columns
        ((s.relations r).map (·.2)) = .ok columns ∧
      s.filter d r = .ok f ∧ s.fromClause r = .ok tables ∧
      Sql.orderClause (s.owner r) s.order = .ok order ∧
      Sql.limitClause d (s.effectiveLimit r) s.offset = .ok limits ∧
      whole = .word "SELECT " :: (columns ++ tables ++ f.whereFragment d ++ order ++ limits) := by
  obtain ⟨columns, hcolumns, hfilter⟩ := bind_eq_ok.mp h
  obtain ⟨f, hf, hfrom⟩ := bind_eq_ok.mp hfilter
  obtain ⟨tables, htables, hordered⟩ := bind_eq_ok.mp hfrom
  obtain ⟨order, horder, hlimited⟩ := bind_eq_ok.mp hordered
  obtain ⟨limits, hlimits, rfl⟩ := functor_map_eq_ok.mp hlimited
  exact ⟨columns, f, tables, order, limits, hcolumns, hf, htables, horder, hlimits, rfl⟩

/-- A select is what its pieces print and bind: the columns, the tables, the order and the limits
have no slots, so the values of the condition are all there are. -/
theorem build_eq (d : Dialect) (r : Repository) (s : Select) :
    s.build d r = (s.fragment d r).map (Fragment.statement d) := by
  unfold build fragment
  dsimp only
  cases hcolumns : Sql.columnList (s.owner r) (r.codec.columnNames.map .text) s.columns
      ((s.relations r).map (·.2)) with
  | error e => rfl
  | ok columns =>
    cases s.filter d r with
    | error e => rfl
    | ok f =>
      cases htables : s.fromClause r with
      | error e => rfl
      | ok tables =>
        cases horder : Sql.orderClause (s.owner r) s.order with
        | error e => rfl
        | ok order =>
          cases hlimits : Sql.limitClause d (s.effectiveLimit r) s.offset with
          | error e => rfl
          | ok limits =>
            have hlist : columns.isFixed true = true := Sql.isFixed_columnList nofun hcolumns
            have hfrom : tables.isFixed true = true := isFixed_fromClause htables
            have hby : order.isFixed true = true := Sql.isFixed_orderClause horder
            have hcount : limits.isFixed true = true := Sql.isFixed_limitClause hlimits
            show Except.ok _ = Except.ok (Fragment.statement d
              (.word "SELECT " :: (columns ++ tables ++ f.whereFragment d ++ order ++ limits)))
            simp [Fragment.statement, Sql.sql_cons, Sql.sql_append, Piece.chars, f.whereText_write,
              f.params_whereFragment, Fragment.params_of_isFixed hlist, Fragment.params_of_isFixed hfrom,
              Fragment.params_of_isFixed hby, Fragment.params_of_isFixed hcount, String.append_assoc]

/-- A select that is built is the statement of its parts. -/
theorem of_build (h : s.build d r = .ok st) :
    ∃ columns f tables order limits,
      Sql.columnList (s.owner r) (r.codec.columnNames.map .text) s.columns
        ((s.relations r).map (·.2)) = .ok columns ∧
      s.filter d r = .ok f ∧ s.fromClause r = .ok tables ∧
      Sql.orderClause (s.owner r) s.order = .ok order ∧
      Sql.limitClause d (s.effectiveLimit r) s.offset = .ok limits ∧
      st = Fragment.statement d
        (.word "SELECT " :: (columns ++ tables ++ f.whereFragment d ++ order ++ limits)) := by
  rw [build_eq] at h
  obtain ⟨whole, hwhole, rfl⟩ := map_eq_ok.mp h
  obtain ⟨columns, f, tables, order, limits, hcolumns, hf, htables, horder, hlimits, rfl⟩ :=
    of_fragment hwhole
  exact ⟨columns, f, tables, order, limits, hcolumns, hf, htables, horder, hlimits, rfl⟩

/-- A select of aggregates is made of these, its filter and its tables. -/
theorem of_aggregateFragment {aggregates : List Aggregate} {whole : Fragment}
    (h : s.aggregateFragment d r aggregates = .ok whole) :
    ∃ parts f tables,
      aggregates.mapM (Aggregate.fragment d (s.owner r) r.codec.utc) = .ok parts ∧
      s.filter d r = .ok f ∧ s.fromClause r = .ok tables ∧
      whole = .word "SELECT " :: (Fragment.joined ", " parts ++ tables ++ f.whereFragment d) := by
  unfold aggregateFragment at h
  split_ifs at h
  · simp [refuse] at h
  · obtain ⟨parts, hparts, hfilter⟩ := bind_eq_ok.mp h
    obtain ⟨f, hf, hfrom⟩ := bind_eq_ok.mp hfilter
    obtain ⟨tables, htables, rfl⟩ := functor_map_eq_ok.mp hfrom
    exact ⟨parts, f, tables, hparts, hf, htables, rfl⟩

/-- A select of aggregates is what its pieces print and bind, the aggregates before the
condition. -/
theorem buildAggregates_eq (d : Dialect) (r : Repository) (s : Select) (aggregates : List Aggregate) :
    s.buildAggregates d r aggregates =
      (s.aggregateFragment d r aggregates).map (Fragment.statement d) := by
  have hwritten : aggregates.mapM (Aggregate.write d (s.owner r) r.codec.utc) =
      (aggregates.mapM (Aggregate.fragment d (s.owner r) r.codec.utc)).map
        (List.map (Fragment.statement d)) := by
    rw [funext (Aggregate.write_eq (s.owner r) r.codec.utc)]
    exact mapM_map_eq _ _ aggregates
  unfold buildAggregates aggregateFragment
  split
  · rfl
  · rw [hwritten]
    cases aggregates.mapM (Aggregate.fragment d (s.owner r) r.codec.utc) with
    | error e => rfl
    | ok parts =>
      cases s.filter d r with
      | error e => rfl
      | ok f =>
        cases htables : s.fromClause r with
        | error e => rfl
        | ok tables =>
          have hfrom : tables.isFixed true = true := isFixed_fromClause htables
          show Except.ok _ = Except.ok (Fragment.statement d
            (.word "SELECT " :: (Fragment.joined ", " parts ++ tables ++ f.whereFragment d)))
          rw [Draft.ofList_eq]
          simp [Fragment.statement, Sql.sql_cons, Sql.sql_append, Sql.sql_joined, Sql.params_joined,
            Piece.chars, f.whereText_write, f.params_whereFragment, Fragment.params_of_isFixed hfrom,
            List.flatMap_map, Function.comp_def, String.append_assoc]

/-- A select of aggregates that is built is the statement of its parts. -/
theorem of_buildAggregates {aggregates : List Aggregate}
    (h : s.buildAggregates d r aggregates = .ok st) :
    ∃ parts f tables,
      aggregates.mapM (Aggregate.fragment d (s.owner r) r.codec.utc) = .ok parts ∧
      s.filter d r = .ok f ∧ s.fromClause r = .ok tables ∧
      st = Fragment.statement d
        (.word "SELECT " :: (Fragment.joined ", " parts ++ tables ++ f.whereFragment d)) := by
  rw [buildAggregates_eq] at h
  obtain ⟨whole, hwhole, rfl⟩ := map_eq_ok.mp h
  obtain ⟨parts, f, tables, hparts, hf, htables, rfl⟩ := of_aggregateFragment hwhole
  exact ⟨parts, f, tables, hparts, hf, htables, rfl⟩

end Select

/-- An aggregate is a call over the case that is active or over its plain expression. -/
theorem Sql.Aggregate.of_fragment {a : Aggregate} {owner : Value} {utc : Bool} {f : Fragment}
    (h : a.fragment d owner utc = .ok f) :
    ∃ label active, Sql.identifier a.label = .ok label ∧ a.activeCase d owner utc = .ok active ∧
      match active with
      | none => ∃ expression, a.plainExpression owner = .ok expression ∧ f = a.call label expression
      | some (case, filter) => f = a.call label (a.caseExpression d case filter) := by
  obtain ⟨label, hlabel, hcase⟩ := bind_eq_ok.mp h
  obtain ⟨active, hactive, hf⟩ := bind_eq_ok.mp hcase
  refine ⟨label, active, hlabel, hactive, ?_⟩
  cases active with
  | none =>
    obtain ⟨expression, hexpression, rfl⟩ := functor_map_eq_ok.mp hf
    exact ⟨expression, hexpression, rfl⟩
  | some active => exact (pure_eq_ok.mp hf).symm

namespace Insert

variable {first : Record}

/-- What is written of one column of a row. -/
theorem writeCell_eq (row : Record) (cells : Draft) (column : String) :
    writeCell d first row cells column =
      cells.add (Fragment.sql d (cell first row column)) (Fragment.params (cell first row column)) := by
  unfold writeCell cell
  split
  · simp [Sql.sql_cons, Sql.sql_nil, Piece.chars]
  · split <;> simp [Sql.sql_cons, Sql.sql_nil, Piece.chars]

/-- What is written of one row. -/
theorem writeRow_eq (columns : List String) (rows : Draft) (row : Record) :
    writeRow d first columns rows row =
      rows.add (Fragment.sql d (rowFragment first columns row))
        (Fragment.params (rowFragment first columns row)) := by
  have hcell : writeCell d first row = fun cells column =>
      cells.add ((cell first row column).statement d).sql ((cell first row column).statement d).params :=
    funext fun cells => funext fun column => writeCell_eq row cells column
  unfold writeRow
  simp only [hcell, Draft.foldl_add fun column => (cell first row column).statement d]
  simp [rowFragment, Draft.add, Fragment.statement, Sql.sql_parenthesized, Sql.sql_joined,
    Sql.params_joined, List.flatMap_map, Function.comp_def]

/-- An insert is what its pieces print and bind, row after row. -/
theorem write_eq (table : String) (columns : List String) (rows : List Record) :
    write d table columns first rows = (fragment table columns first rows).statement d := by
  have hname (name : String) : String.ofList (d.quoteChars name.toList) = d.quoteName name := rfl
  have hrow : writeRow d first columns = fun written row =>
      written.add ((rowFragment first columns row).statement d).sql
        ((rowFragment first columns row).statement d).params :=
    funext fun written => funext fun row => writeRow_eq columns written row
  unfold write
  simp only [hrow, Draft.foldl_add fun row => (rowFragment first columns row).statement d]
  simp [fragment, Fragment.statement, Sql.sql_cons, Sql.sql_append, Sql.sql_joined, Sql.sql_nil,
    Sql.params_joined, List.flatMap_map, hname, Piece.chars, Function.comp_def, String.append_assoc]

end Insert

/-- An update is what its pieces print and bind, what is set before the condition. -/
theorem Update.write_eq (table : String) (row : Record) (f : Filter) :
    write d table row f = (fragment d table row f).statement d := by
  have hvalues : row.values = row.flatMap fun field => [field.2] := List.map_eq_flatMap
  unfold write fragment
  simp [Fragment.statement, Sql.sql_cons, Sql.sql_append, Sql.sql_joined, Sql.sql_nil, Sql.params_joined,
    List.flatMap_map, f.whereText_write, f.params_whereFragment, hvalues, Record.names, Piece.chars,
    Dialect.quoteName, Function.comp_def, String.append_assoc]

/-- A delete is what its pieces print and bind. -/
theorem Delete.write_eq (table : String) (f : Filter) :
    write d table f = (fragment d table f).statement d := by
  unfold write fragment
  simp [Fragment.statement, Sql.sql_cons, f.whereText_write, f.params_whereFragment, Piece.chars,
    Dialect.quoteName, String.append_assoc]

/-- An insert is built exactly from a batch of objects that can all be stored, one column or more
that is written, and a table with a name. -/
theorem Insert.build_eq_some_iff {objects : Value} {force : Bool} {st : Statement} :
    build d r objects force = .ok (some st) ↔
      objects.isTrue = true ∧ ∃ items first rest table, objects.items = .ok items ∧
        items.mapM (fun o => r.codec.toRow o (!force) false) = .ok (first :: rest) ∧
        written d r.codec.columnNames first ≠ [] ∧ Sql.identifier r.table = .ok table ∧
        st = (fragment table (written d r.codec.columnNames first) first (first :: rest)).statement d := by
  unfold build
  simp only [write_eq]
  cases objects.isTrue with
  | false => simp
  | true =>
    simp only [Bool.not_true, Bool.false_eq_true, if_false, bind_eq_ok, true_and]
    constructor
    · rintro ⟨items, hitems, rows, hrows, hbuilt⟩
      cases rows with
      | nil => simp at hbuilt
      | cons first rest =>
        cases hwritten : written d r.codec.columnNames first with
        | nil => simp [hwritten, refuse] at hbuilt
        | cons column columns =>
          obtain ⟨table, htable, hst⟩ : ∃ table, Sql.identifier r.table = .ok table ∧
              (fragment table (column :: columns) first (first :: rest)).statement d = st := by
            simpa [hwritten] using hbuilt
          exact ⟨items, first, rest, table, hitems, hrows, by simp [hwritten], htable, by
            rw [hwritten, hst]⟩
    · rintro ⟨items, first, rest, table, hitems, hrows, hwritten, htable, rfl⟩
      refine ⟨items, hitems, first :: rest, hrows, ?_⟩
      have hsome : (written d r.codec.columnNames first).isEmpty = false := by
        simpa [List.isEmpty_eq_false_iff] using hwritten
      simp [hsome, htable]

/-- An insert that is built is the statement of its rows. -/
theorem Insert.of_build {objects : Value} {force : Bool} {st : Statement}
    (h : build d r objects force = .ok (some st)) :
    ∃ items first rest table, objects.items = .ok items ∧
      items.mapM (fun o => r.codec.toRow o (!force) false) = .ok (first :: rest) ∧
      st = (fragment table (written d r.codec.columnNames first) first (first :: rest)).statement d := by
  obtain ⟨-, items, first, rest, table, hitems, hrows, -, -, hst⟩ := build_eq_some_iff.mp h
  exact ⟨items, first, rest, table, hitems, hrows, hst⟩

/-- A change is passed over if it sets nothing; otherwise its condition says something. -/
theorem Update.of_buildOne {force : Bool} {change : Value × Value} {built : Option Statement}
    (h : buildOne d r force change = .ok built) :
    ∃ row, r.codec.toRow change.2 (!force) true = .ok row ∧
      if row.isEmpty then built = none
      else ∃ f table, Filter.compile d .null r.codec.utc change.1 [] = .ok f ∧
        f.isEmpty = false ∧ Sql.identifier r.table = .ok table ∧
        built = some ((fragment d table row f).statement d) := by
  obtain ⟨row, hrow, hbuilt⟩ := bind_eq_ok.mp h
  refine ⟨row, hrow, ?_⟩
  split_ifs at hbuilt ⊢
  · exact (pure_eq_ok.mp hbuilt).symm
  · obtain ⟨f, hf, hfilter⟩ := bind_eq_ok.mp hbuilt
    cases hempty : f.isEmpty with
    | true => simp [hempty, refuse] at hfilter
    | false =>
      rw [hempty] at hfilter
      obtain ⟨table, htable, rfl⟩ := functor_map_eq_ok.mp hfilter
      exact ⟨f, table, hf, hempty, htable, by rw [write_eq]⟩

/-- A delete that is built is the statement of its filter, which is not empty. -/
theorem Delete.of_buildOne {condition : Value} {st : Statement}
    (h : buildOne d r condition = .ok st) :
    ∃ f table, Filter.compile d .null r.codec.utc condition [] = .ok f ∧ f.isEmpty = false ∧
      Sql.identifier r.table = .ok table ∧ st = (fragment d table f).statement d := by
  obtain ⟨f, hf, hbuilt⟩ := bind_eq_ok.mp h
  cases hempty : f.isEmpty with
  | true => simp [hempty, refuse] at hbuilt
  | false =>
    rw [hempty] at hbuilt
    obtain ⟨table, htable, rfl⟩ := functor_map_eq_ok.mp hbuilt
    exact ⟨f, table, hf, hempty, htable, write_eq table f⟩

end Quarry
