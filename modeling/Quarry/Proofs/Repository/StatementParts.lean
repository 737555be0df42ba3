import Quarry.Proofs.Repository.Alignment
import Quarry.Proofs.Repository.Built

/-!
# The parts of statements

For every kind of statement: which parts it is made of, and that it is aligned with them. What
precedes the condition of a select binds nothing; aggregates bind the values of their cases in front
of those of the condition; an insert binds row after row; an update binds what it sets in front of
the values of its condition.
-/

set_option autoImplicit false

namespace Quarry

open Sql (Aggregate AlignedWith Dialect Filter Fragment Lays Part Piece Statement)

variable {d : Dialect}

/-- A condition binds the values of its atoms. -/
theorem Sql.Filter.aligned_build {owner : Value} {utc : Bool} {query groups : Value} {st : Statement}
    (h : Filter.build d owner utc query groups = .ok st) :
    ∃ f, Filter.ofValues d owner utc query groups = .ok f ∧ AlignedWith d st f.parts := by
  obtain ⟨f, hf, rfl⟩ := map_eq_ok.mp h
  refine ⟨f, hf, ?_⟩
  rw [f.write_eq]
  exact f.lays_fragment.aligned

/-! ## Selects -/

/-- The parts of an aggregate whose case is active: the atoms of its condition and, unless rows are
only counted, its two branches. -/
def Sql.Aggregate.caseParts (a : Aggregate) : Option (Record × Filter) → List Part
  | none => []
  | some (case, filter) =>
    filter.parts ++
      if a.function = .count then []
      else [.branch " THEN " (case.valueOr "then" (.int 1)),
        .branch " ELSE " (case.valueOr "else" (.int 0))]

/-- The sources of a case are those of its condition and its values. -/
theorem Sql.Aggregate.lays_caseExpression (a : Aggregate) (case : Record) (filter : Filter) :
    Lays d (a.caseExpression d case filter) (a.caseParts (some (case, filter))) := by
  have hwhen : Lays d [.word "CASE WHEN "] [] := Sql.lays_word rfl
  have hfilter := hwhen.append (filter.lays_fragment (d := d))
  by_cases hcount : a.function = .count
  · have hend : Lays d [.word " THEN 1 END"] [] := Sql.lays_word rfl
    simpa [caseExpression, caseParts, hcount] using hfilter.append hend
  · have hthen : Lays d [.word " THEN ", .slot (case.valueOr "then" (.int 1))]
        [.branch " THEN " (case.valueOr "then" (.int 1))] :=
      Sql.lays_part (p := .branch " THEN " (case.valueOr "then" (.int 1))) rfl rfl
    have helse : Lays d [.word " ELSE ", .slot (case.valueOr "else" (.int 0))]
        [.branch " ELSE " (case.valueOr "else" (.int 0))] :=
      Sql.lays_part (p := .branch " ELSE " (case.valueOr "else" (.int 0))) rfl rfl
    have hend : Lays d [.word " END"] [] := Sql.lays_word rfl
    simpa [caseExpression, caseParts, hcount] using
      hfilter.append (hthen.append (helse.append hend))

/-- A call adds no source. -/
theorem Sql.Aggregate.lays_call (a : Aggregate) (label : String) {f : Fragment} {ps : List Part}
    (h : Lays d f ps) : Lays d (a.call label f) ps := by
  have hfunction : (Piece.word a.function.label).isFixed false = true := by
    cases a.function <;> rfl
  have hopen : Lays d [.word a.function.label, .word "("] [] :=
    Sql.lays_fixed (by rw [Fragment.isFixed_cons, hfunction]; rfl)
  have hclose : Lays d [.word ") AS ", .name label] [] := Sql.lays_fixed rfl
  simpa [call] using hopen.append (h.append hclose)

/-- An aggregate is made of the parts of its case. -/
theorem Sql.Aggregate.lays_fragment {a : Aggregate} {owner : Value} {utc : Bool} {f : Fragment}
    (h : a.fragment d owner utc = .ok f) :
    ∃ active, a.activeCase d owner utc = .ok active ∧ Lays d f (a.caseParts active) := by
  obtain ⟨label, active, -, hactive, hf⟩ := of_fragment h
  refine ⟨active, hactive, ?_⟩
  cases active with
  | none =>
    obtain ⟨expression, hexpression, rfl⟩ := hf
    exact a.lays_call label (Sql.lays_fixed (Sql.Aggregate.isFixed_plainExpression hexpression))
  | some active =>
    subst hf
    exact a.lays_call label (a.lays_caseExpression active.1 active.2)

/-- Aggregates are made of the parts of their cases, one aggregate after the other. -/
theorem Sql.Aggregate.lays_fragments {owner : Value} {utc : Bool} {aggregates : List Aggregate}
    {fs : List Fragment} (h : aggregates.mapM (Aggregate.fragment d owner utc) = .ok fs) :
    ∃ cases, aggregates.mapM (Aggregate.activeCase d owner utc) = .ok cases ∧
      List.Forall₂ (Lays d) fs (List.zipWith Aggregate.caseParts aggregates cases) := by
  have hall := mapM_eq_ok_iff.mp h
  clear h
  induction hall with
  | nil => exact ⟨[], rfl, .nil⟩
  | cons hfirst hrest ih =>
    obtain ⟨active, hactive, hlays⟩ := lays_fragment hfirst
    obtain ⟨others, hothers, hlater⟩ := ih
    exact ⟨active :: others, mapM_eq_ok_iff.mpr (.cons hactive (mapM_eq_ok_iff.mp hothers)),
      .cons hlays hlater⟩

namespace Select

variable {r : Repository} {s : Select} {st : Statement}

/-- A select binds the values of its condition and nothing else. -/
theorem aligned_build (hraw : ∀ c ∈ s.columns, Sql.isRawValue c ≠ .ok true)
    (h : s.build d r = .ok st) : ∃ f, s.filter d r = .ok f ∧ AlignedWith d st f.parts := by
  obtain ⟨columns, f, tables, order, limits, hcolumns, hf, htables, horder, hlimits, rfl⟩ := of_build h
  refine ⟨f, hf, ?_⟩
  have hselect : Lays d [.word "SELECT "] [] := Sql.lays_word rfl
  have hlist := Sql.lays_fixed (d := d) (Sql.isFixed_columnList (fun _ => hraw) hcolumns)
  have hfrom := Sql.lays_fixed (d := d) (isFixed_fromClause htables)
  have hby := Sql.lays_fixed (d := d) (Sql.isFixed_orderClause horder)
  have hcount := Sql.lays_fixed (d := d) (Sql.isFixed_limitClause hlimits)
  have hall := hselect.append (hlist.append (hfrom.append (f.lays_where.append
    (hby.append hcount))))
  refine Lays.aligned ?_
  simpa using hall

/-- A select of aggregates binds the values of the cases first and those of its condition last. -/
theorem aligned_buildAggregates {aggregates : List Aggregate}
    (h : s.buildAggregates d r aggregates = .ok st) :
    ∃ cases f, aggregates.mapM (Aggregate.activeCase d (s.owner r) r.codec.utc) = .ok cases ∧
      s.filter d r = .ok f ∧
        AlignedWith d st ((List.zipWith Aggregate.caseParts aggregates cases).flatten ++ f.parts) := by
  obtain ⟨parts, f, tables, hparts, hf, htables, rfl⟩ := of_buildAggregates h
  obtain ⟨cases, hcases, hlays⟩ := Sql.Aggregate.lays_fragments hparts
  refine ⟨cases, f, hcases, hf, ?_⟩
  have hcomma : (Piece.word ", ").isFixed false = true := rfl
  have hselect : Lays d [.word "SELECT "] [] := Sql.lays_word rfl
  have hfrom := Sql.lays_fixed (d := d) (isFixed_fromClause htables)
  have hall := hselect.append ((Sql.lays_joined hcomma hlays).append (hfrom.append f.lays_where))
  refine Lays.aligned ?_
  simpa using hall

end Select

/-! ## Writes -/

variable {r : Repository}

/-- The sources of a row are its cells. -/
theorem Insert.lays_row (first : Record) (columns : List String) (row : Record) :
    Lays d (rowFragment first columns row) (columns.map (.cell first row)) := by
  have hcomma : (Piece.word ", ").isFixed false = true := rfl
  have hcell : ∀ c ∈ columns, Lays d (cell first row c) [.cell first row c] := by
    intro c _
    refine Sql.lays_part (p := .cell first row c) rfl ?_
    simp only [Part.fragment, cell]
    split_ifs
    · rfl
    · split <;> rfl
  have hcells := Sql.lays_joined_map hcomma (cell first row) (fun c => [.cell first row c]) columns
    hcell
  simpa [rowFragment, ← List.map_eq_flatMap] using hcells.parenthesized

/-- The sources of an insert are the cells of its rows. -/
theorem Insert.lays_fragment (table : String) (columns : List String) (first : Record)
    (rows : List Record) :
    Lays d (fragment table columns first rows)
      (rows.flatMap fun row => columns.map (.cell first row)) := by
  have hcomma : (Piece.word ", ").isFixed false = true := rfl
  have hinto : Lays d [.word "INSERT INTO ", .name table, .word " ("] [] := Sql.lays_fixed rfl
  have hnames : Lays d (Fragment.joined ", " (columns.map fun c => [.name c])) [] := by
    refine Sql.lays_fixed (Fragment.isFixed_joined hcomma ?_)
    intro f hf
    obtain ⟨c, -, rfl⟩ := List.mem_map.mp hf
    rfl
  have hvalues : Lays d [.word ") VALUES "] [] := Sql.lays_word rfl
  have hrows := Sql.lays_joined_map (d := d) hcomma (rowFragment first columns)
    (fun row => columns.map (.cell first row)) rows fun row _ => lays_row first columns row
  simpa [fragment] using hinto.append (hnames.append (hvalues.append hrows))

/-- An insert binds the cells of its rows, row after row. -/
theorem Insert.aligned_build {objects : Value} {force : Bool} {st : Statement}
    (h : build d r objects force = .ok (some st)) :
    ∃ items first rest, objects.items = .ok items ∧
      items.mapM (fun o => r.codec.toRow o (!force) false) = .ok (first :: rest) ∧
        AlignedWith d st ((first :: rest).flatMap fun row =>
          (written d r.codec.columnNames first).map (.cell first row)) := by
  obtain ⟨items, first, rest, table, hitems, hrows, rfl⟩ := of_build h
  exact ⟨items, first, rest, hitems, hrows, (lays_fragment table _ first _).aligned⟩

/-- The sources of an update are the values that it sets and those of its filter. -/
theorem Update.lays_fragment (table : String) (row : Record) (f : Filter) :
    Lays d (fragment d table row f) (row.map (fun e => .item e.1 e.2) ++ f.parts) := by
  have hcomma : (Piece.word ", ").isFixed false = true := rfl
  have hset : Lays d [.word "UPDATE ", .name table, .word " SET "] [] := Sql.lays_fixed rfl
  have hitems := Sql.lays_joined_map (d := d) hcomma
    (fun e : String × Value => [Piece.name e.1, .word " = ", .slot e.2])
    (fun e => [Part.item e.1 e.2]) row fun e _ => Sql.lays_part (p := .item e.1 e.2) rfl rfl
  simpa [fragment, ← List.map_eq_flatMap] using hset.append (hitems.append f.lays_where)

/-- An update binds what it sets first and the values of its condition last. -/
theorem Update.aligned_buildOne {force : Bool} {change : Value × Value} {st : Statement}
    (h : buildOne d r force change = .ok (some st)) :
    ∃ row f, r.codec.toRow change.2 (!force) true = .ok row ∧
      Filter.compile d .null r.codec.utc change.1 [] = .ok f ∧
        AlignedWith d st (row.map (fun e => .item e.1 e.2) ++ f.parts) := by
  obtain ⟨row, hrow, hbuilt⟩ := of_buildOne h
  by_cases hempty : row.isEmpty = true
  · rw [if_pos hempty] at hbuilt
    exact absurd hbuilt (by simp)
  · rw [if_neg hempty] at hbuilt
    obtain ⟨f, table, hf, -, -, hst⟩ := hbuilt
    obtain rfl := Option.some.inj hst
    exact ⟨row, f, hrow, hf, (lays_fragment table row f).aligned⟩

/-- A delete binds the values of its condition. -/
theorem Delete.aligned_buildOne {condition : Value} {st : Statement}
    (h : buildOne d r condition = .ok st) :
    ∃ f, Filter.compile d .null r.codec.utc condition [] = .ok f ∧ AlignedWith d st f.parts := by
  obtain ⟨f, table, hf, -, -, rfl⟩ := of_buildOne h
  have hfrom : Lays d [.word "DELETE FROM ", .name table] [] := Sql.lays_fixed rfl
  exact ⟨f, hf, (hfrom.append f.lays_where).aligned⟩

/-- Each statement of an update has its change. -/
theorem Update.aligned_build {changes : List (Value × Value)} {force : Bool} {sts : List Statement}
    (h : build d r changes force = .ok sts) :
    ∀ st ∈ sts, ∃ change ∈ changes, ∃ row f, r.codec.toRow change.2 (!force) true = .ok row ∧
      Filter.compile d .null r.codec.utc change.1 [] = .ok f ∧
        AlignedWith d st (row.map (fun e => .item e.1 e.2) ++ f.parts) := by
  obtain ⟨built, hbuilt, rfl⟩ := functor_map_eq_ok.mp h
  intro st hst
  obtain ⟨one, hone, rfl⟩ := List.mem_filterMap.mp hst
  obtain ⟨change, hchange, hchanged⟩ := (mem_iff_of_mapM_eq_ok hbuilt).mp hone
  exact ⟨change, hchange, aligned_buildOne hchanged⟩

/-- Each statement of a delete has its condition. -/
theorem Delete.aligned_build {conditions : Value} {sts : List Statement}
    (h : build d r conditions = .ok sts) :
    ∃ items, conditions.items = .ok items ∧ ∀ st ∈ sts, ∃ condition ∈ items,
      ∃ f, Filter.compile d .null r.codec.utc condition [] = .ok f ∧ AlignedWith d st f.parts := by
  obtain ⟨items, hitems, hbuilt⟩ := bind_eq_ok.mp h
  refine ⟨items, hitems, ?_⟩
  intro st hst
  obtain ⟨condition, hcondition, hone⟩ := (mem_iff_of_mapM_eq_ok hbuilt).mp hst
  exact ⟨condition, hcondition, aligned_buildOne hone⟩

/-! ## All statements -/

/-- Whatever is written in a dialect has as many placeholders outside of quoted names as parameters,
and the placeholder of each number stands in the part that binds the parameter of that number. -/
theorem placeholders_aligned (d : Dialect) :
    (∀ (owner : Value) (utc : Bool) (query groups : Value) (st : Statement),
      Filter.build d owner utc query groups = .ok st →
        ∃ f, Filter.ofValues d owner utc query groups = .ok f ∧ AlignedWith d st f.parts) ∧
    (∀ (r : Repository) (s : Select) (st : Statement),
      (∀ c ∈ s.columns, Sql.isRawValue c ≠ .ok true) → s.build d r = .ok st →
        ∃ f, s.filter d r = .ok f ∧ AlignedWith d st f.parts) ∧
    (∀ (r : Repository) (s : Select) (aggregates : List Aggregate) (st : Statement),
      s.buildAggregates d r aggregates = .ok st →
        ∃ cases f, aggregates.mapM (Aggregate.activeCase d (s.owner r) r.codec.utc) = .ok cases ∧
          s.filter d r = .ok f ∧ AlignedWith d st
            ((List.zipWith Aggregate.caseParts aggregates cases).flatten ++ f.parts)) ∧
    (∀ (r : Repository) (objects : Value) (force : Bool) (st : Statement),
      Insert.build d r objects force = .ok (some st) →
        ∃ items first rest, objects.items = .ok items ∧
          items.mapM (fun o => r.codec.toRow o (!force) false) = .ok (first :: rest) ∧
            AlignedWith d st ((first :: rest).flatMap fun row =>
              (Insert.written d r.codec.columnNames first).map (.cell first row))) ∧
    (∀ (r : Repository) (changes : List (Value × Value)) (force : Bool) (sts : List Statement),
      Update.build d r changes force = .ok sts →
        ∀ st ∈ sts, ∃ change ∈ changes, ∃ row f,
          r.codec.toRow change.2 (!force) true = .ok row ∧
            Filter.compile d .null r.codec.utc change.1 [] = .ok f ∧
              AlignedWith d st (row.map (fun e => .item e.1 e.2) ++ f.parts)) ∧
    (∀ (r : Repository) (conditions : Value) (sts : List Statement),
      Delete.build d r conditions = .ok sts →
        ∃ items, conditions.items = .ok items ∧ ∀ st ∈ sts, ∃ condition ∈ items,
          ∃ f, Filter.compile d .null r.codec.utc condition [] = .ok f ∧
            AlignedWith d st f.parts) := by
  refine ⟨?_, ?_, ?_, ?_, ?_, ?_⟩
  · intro owner utc query groups st h
    exact Filter.aligned_build h
  · intro r s st hraw h
    exact Select.aligned_build hraw h
  · intro r s aggregates st h
    exact Select.aligned_buildAggregates h
  · intro r objects force st h
    exact Insert.aligned_build h
  · intro r changes force sts h
    exact Update.aligned_build h
  · intro r conditions sts h
    exact Delete.aligned_build h

/-- Names that look like placeholders. -/
theorem placeholders_aligned_hostile_names :
    let r : Repository :=
      ⟨.text "t%s?", ⟨["a?", "b%s"], [], [], true, true⟩, [], .null, .proper {}⟩
    let query : Value := .record [("a?", .list [.int 1, .int 2]), ("b%s", .text "x")]
    let s : Select := { condition := query, columns := [.text "b%s"] }
    let a : Aggregate :=
      ⟨.sum, .text "n?", .text "a?", .record [("when", query), ("then", .int 3)], none⟩
    let object : Value := .record [("a?", .int 4), ("b%s", .null)]
    (∃ st, Filter.build .mysql .null true query .null = .ok st ∧
        ∃ g, Filter.ofValues .mysql .null true query .null = .ok g ∧ AlignedWith .mysql st g.parts) ∧
      (∃ st, s.build .sqlite r = .ok st ∧
        ∃ g, s.filter .sqlite r = .ok g ∧ AlignedWith .sqlite st g.parts) ∧
      (∃ st, s.buildAggregates .sqlite r [a] = .ok st ∧
        ∃ cases g, [a].mapM (Aggregate.activeCase .sqlite (s.owner r) true) = .ok cases ∧
          s.filter .sqlite r = .ok g ∧ AlignedWith .sqlite st
            ((List.zipWith Aggregate.caseParts [a] cases).flatten ++ g.parts)) ∧
      (∃ st, Insert.build .sqlite r (.list [object, object]) false = .ok (some st) ∧
        ∃ items first rest, (Value.list [object, object]).items = .ok items ∧
          items.mapM (fun o => r.codec.toRow o true false) = .ok (first :: rest) ∧
            AlignedWith .sqlite st ((first :: rest).flatMap fun row =>
              (Insert.written .sqlite ["a?", "b%s"] first).map (.cell first row))) ∧
      (∃ sts, Update.build .sqlite r [(query, object)] false = .ok sts ∧
        ∀ st ∈ sts, ∃ change ∈ [(query, object)], ∃ row g,
          r.codec.toRow change.2 true true = .ok row ∧
            Filter.compile .sqlite .null true change.1 [] = .ok g ∧
              AlignedWith .sqlite st (row.map (fun e => .item e.1 e.2) ++ g.parts)) ∧
      (∃ sts, Delete.build .sqlite r (.list [query]) = .ok sts ∧
        ∃ items, (Value.list [query]).items = .ok items ∧ ∀ st ∈ sts, ∃ condition ∈ items,
          ∃ g, Filter.compile .sqlite .null true condition [] = .ok g ∧
            AlignedWith .sqlite st g.parts) := by
  intro r query s a object
  obtain ⟨-, hselect, hcompute, hinsert, hupdate, hdelete⟩ := placeholders_aligned .sqlite
  have hplain : ∀ c ∈ s.columns, Sql.isRawValue c ≠ .ok true := by
    intro c hc
    obtain rfl := List.mem_singleton.mp hc
    intro hraw
    exact Bool.noConfusion (Except.ok.inj hraw)
  exact ⟨⟨_, rfl, (placeholders_aligned .mysql).1 .null true query .null _ rfl⟩,
    ⟨_, rfl, hselect r s _ hplain rfl⟩, ⟨_, rfl, hcompute r s [a] _ rfl⟩,
    ⟨_, rfl, hinsert r (.list [object, object]) false _ rfl⟩,
    ⟨_, rfl, hupdate r [(query, object)] false _ rfl⟩,
    ⟨_, rfl, hdelete r (.list [query]) _ rfl⟩⟩

end Quarry
