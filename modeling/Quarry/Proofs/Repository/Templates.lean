import Quarry.Proofs.Repository.Built
import Quarry.Proofs.Sql.Template

/-!
# Statements as templates

All that is built for a MySQL server, apart from pieces of SQL among the chosen columns, is made of
fixed words, slots and names in quotes. So its text does as a template for the driver exactly if the
names that were written into it have no percent signs: those of tables, columns and aggregates.
Values may have any, since they are not part of the text.
-/

set_option autoImplicit false

namespace Quarry

open Sql (Aggregate Atom Dialect Filter Fragment IsTemplate Piece Statement isTemplate_iff)

variable {d : Dialect} {r : Repository}

/-! ## Statements have no other text of the caller's -/

namespace Sql

/-- No word of a conjunction hides a placeholder. -/
theorem Filter.isTame_conjunction (atoms : List Atom) : (conjunction d atoms).isTame = true := by
  refine isTame_joined rfl fun f hf => ?_
  obtain ⟨a, -, rfl⟩ := List.mem_map.mp hf
  exact a.isTame_fragment

/-- No word of a disjunction hides a placeholder. -/
theorem Filter.isTame_disjunction (groups : List (List Atom)) : (disjunction d groups).isTame = true := by
  refine isTame_joined rfl fun f hf => ?_
  obtain ⟨g, -, rfl⟩ := List.mem_map.mp hf
  rw [isTame_parenthesized]
  exact isTame_conjunction g

/-- No word of a filter hides a placeholder. -/
theorem Filter.isTame_fragment (f : Filter) : (f.fragment d).isTame = true := by
  have hand : (Piece.word " AND ").isTame = true := rfl
  unfold fragment
  split_ifs
  · exact isTame_conjunction _
  · exact isTame_disjunction _
  · simp [hand, isTame_conjunction, isTame_disjunction]

/-- No word of the `WHERE` part hides a placeholder. -/
theorem Filter.isTame_whereFragment (f : Filter) : (f.whereFragment d).isTame = true := by
  have hwhere : (Piece.word " WHERE ").isTame = true := rfl
  unfold whereFragment
  split_ifs
  · rfl
  · simp [hwhere, isTame_fragment]

/-- No word of a call hides a placeholder. -/
theorem Aggregate.isTame_call (a : Aggregate) (label : String) {f : Fragment} (h : f.isTame = true) :
    (a.call label f).isTame = true := by
  have hfunction : (Piece.word a.function.label).isTame = true := by cases a.function <;> rfl
  have hopen : (Piece.word "(").isTame = true := rfl
  have hclose : (Piece.word ") AS ").isTame = true := rfl
  simp [call, hfunction, hopen, hclose, h]

/-- No word of a case hides a placeholder. -/
theorem Aggregate.isTame_caseExpression (a : Aggregate) (case : Record) (filter : Filter) :
    (a.caseExpression d case filter).isTame = true := by
  have hword : ∀ t ∈ ["CASE WHEN ", " THEN 1 END", " THEN ", " ELSE ", " END"],
      (Piece.word t).isTame = true := by decide
  unfold caseExpression
  split_ifs <;> simp [hword, Filter.isTame_fragment]

/-- No word of an aggregate hides a placeholder. -/
theorem Aggregate.isTame_fragment {a : Aggregate} {owner : Value} {utc : Bool} {f : Fragment}
    (h : a.fragment d owner utc = .ok f) : f.isTame = true := by
  obtain ⟨label, active, -, -, hf⟩ := of_fragment h
  cases active with
  | none =>
    obtain ⟨expression, hexpression, rfl⟩ := hf
    exact a.isTame_call label (Fragment.isTame_of_isFixed (isFixed_plainExpression hexpression))
  | some active =>
    subst hf
    exact a.isTame_call label (a.isTame_caseExpression active.1 active.2)

end Sql

namespace Select

variable {s : Select} {f : Fragment}

/-- No word of a select without raw values hides a placeholder. -/
theorem isTame_fragment (hraw : ∀ c ∈ s.columns, Sql.isRawValue c ≠ .ok true)
    (h : s.fragment d r = .ok f) : f.isTame = true := by
  obtain ⟨columns, filter, tables, order, limits, hcolumns, -, htables, horder, hlimits, rfl⟩ :=
    of_fragment h
  have hselect : (Piece.word "SELECT ").isTame = true := rfl
  have hlist := Fragment.isTame_of_isFixed (Sql.isFixed_columnList (fun _ => hraw) hcolumns)
  have hfrom := Fragment.isTame_of_isFixed (isFixed_fromClause htables)
  have hby := Fragment.isTame_of_isFixed (Sql.isFixed_orderClause horder)
  have hcount := Fragment.isTame_of_isFixed (Sql.isFixed_limitClause hlimits)
  simp [hselect, hlist, hfrom, filter.isTame_whereFragment, hby, hcount]

/-- No word of a select of aggregates hides a placeholder. -/
theorem isTame_aggregateFragment {aggregates : List Aggregate}
    (h : s.aggregateFragment d r aggregates = .ok f) : f.isTame = true := by
  obtain ⟨parts, filter, tables, hparts, -, htables, rfl⟩ := of_aggregateFragment h
  have hselect : (Piece.word "SELECT ").isTame = true := rfl
  have hfrom := Fragment.isTame_of_isFixed (isFixed_fromClause htables)
  have hlist : (Fragment.joined ", " parts).isTame = true := by
    refine Sql.isTame_joined rfl fun part hpart => ?_
    obtain ⟨a, -, ha⟩ := (mem_iff_of_mapM_eq_ok hparts).mp hpart
    exact Sql.Aggregate.isTame_fragment ha
  simp [hselect, hlist, hfrom, filter.isTame_whereFragment]

end Select

/-- No word of an insert hides a placeholder. -/
theorem Insert.isTame_fragment (table : String) (columns : List String) (first : Record)
    (rows : List Record) : (fragment table columns first rows).isTame = true := by
  have hword : ∀ t ∈ ["INSERT INTO ", " (", ") VALUES "], (Piece.word t).isTame = true := by decide
  have hcell : ∀ row c, (cell first row c).isTame = true := by
    intro row c
    unfold cell
    split_ifs
    · rfl
    · split <;> rfl
  have hnames : (Fragment.joined ", " (columns.map fun c => [.name c])).isTame = true := by
    refine Sql.isTame_joined rfl fun f hf => ?_
    obtain ⟨c, -, rfl⟩ := List.mem_map.mp hf
    rfl
  have hrows : (Fragment.joined ", " (rows.map (rowFragment first columns))).isTame = true := by
    refine Sql.isTame_joined rfl fun f hf => ?_
    obtain ⟨row, -, rfl⟩ := List.mem_map.mp hf
    rw [rowFragment, Sql.isTame_parenthesized]
    refine Sql.isTame_joined rfl fun g hg => ?_
    obtain ⟨c, -, rfl⟩ := List.mem_map.mp hg
    exact hcell row c
  simp [fragment, hword, hnames, hrows]

/-- No word of an update hides a placeholder. -/
theorem Update.isTame_fragment (table : String) (row : Record) (f : Filter) :
    (fragment d table row f).isTame = true := by
  have hword : ∀ t ∈ ["UPDATE ", " SET "], (Piece.word t).isTame = true := by decide
  have hitems : (Fragment.joined ", "
      (row.map fun e => [.name e.1, .word " = ", .slot e.2])).isTame = true := by
    refine Sql.isTame_joined rfl fun g hg => ?_
    obtain ⟨e, -, rfl⟩ := List.mem_map.mp hg
    rfl
  simp [fragment, hword, hitems, f.isTame_whereFragment]

/-- No word of a delete hides a placeholder. -/
theorem Delete.isTame_fragment (table : String) (f : Filter) :
    (fragment d table f).isTame = true := by
  have hword : (Piece.word "DELETE FROM ").isTame = true := rfl
  simp [fragment, hword, f.isTame_whereFragment]

/-! ## The names in statements -/

namespace Sql.Filter

/-- The names of a conjunction are those of its atoms. -/
theorem names_conjunction (atoms : List Atom) :
    (conjunction d atoms).names = atoms.flatMap fun a => (a.fragment d).names := by
  rw [conjunction, Fragment.names_joined, List.flatMap_map]

/-- The names of a disjunction are those of the atoms of its groups. -/
theorem names_disjunction (groups : List (List Atom)) :
    (disjunction d groups).names = groups.flatten.flatMap fun a => (a.fragment d).names := by
  rw [disjunction, Fragment.names_joined, List.flatMap_map, List.flatMap_def, List.flatMap_def,
    List.map_flatten, List.flatten_flatten, List.map_map]
  simp [Function.comp_def, names_conjunction, List.flatMap_def]

/-- The names in a condition are those of its atoms. -/
theorem names_fragment (f : Filter) :
    (f.fragment d).names = f.atoms.flatMap fun a => (a.fragment d).names := by
  rw [atoms, List.flatMap_append]
  unfold fragment
  split_ifs with hnone hmain
  · simp [List.isEmpty_iff.mp hnone, names_conjunction]
  · simp [List.isEmpty_iff.mp hmain, names_disjunction]
  · simp [names_conjunction, names_disjunction]

/-- The names of the `WHERE` part are those of the filter. -/
theorem names_whereFragment (f : Filter) : (f.whereFragment d).names = (f.fragment d).names := by
  unfold whereFragment
  split_ifs with hempty
  · have hnone : f.main = [] ∧ f.groups = [] := by simpa [isEmpty] using hempty
    simp [names_fragment, atoms, hnone]
  · rfl

end Sql.Filter

/-- The names of an insert are its table and its columns. -/
theorem Insert.names_fragment (table : String) (columns : List String) (first : Record)
    (rows : List Record) : (fragment table columns first rows).names = table :: columns := by
  have hcell : ∀ row c, (cell first row c).names = [] := by
    intro row c
    unfold cell
    split_ifs
    · rfl
    · split <;> rfl
  have hrow : ∀ row, (rowFragment first columns row).names = [] := by
    intro row
    simp [rowFragment, Fragment.names_joined, List.flatMap_map, hcell]
  simp [fragment, Fragment.names_joined, List.flatMap_map, hrow]

/-- The names of an update are its table, its columns and those of its filter. -/
theorem Update.names_fragment (table : String) (row : Record) (f : Filter) :
    (fragment d table row f).names = table :: (row.map (·.1) ++ (f.fragment d).names) := by
  simp [fragment, Fragment.names_joined, List.flatMap_map, f.names_whereFragment,
    ← List.map_eq_flatMap]

/-- The names of a delete are its table and those of its filter. -/
theorem Delete.names_fragment (table : String) (f : Filter) :
    (fragment d table f).names = table :: (f.fragment d).names := by
  simp [fragment, f.names_whereFragment]

/-! ## All statements -/

/-- The columns of a condition have plain names. -/
def Sql.Filter.HasPlainNames (f : Filter) : Prop := ∀ a ∈ f.atoms, (a.fragment .mysql).HasPlainNames

/-- Whether all names of a filter are plain can be computed. -/
instance (f : Filter) : Decidable f.HasPlainNames :=
  inferInstanceAs (Decidable (∀ a ∈ f.atoms, _))

/-- The names of a filter are plain if those of its text are. -/
theorem Sql.Filter.hasPlainNames_iff (f : Filter) :
    f.HasPlainNames ↔ ∀ n ∈ (f.fragment .mysql).names, Sql.IsPlainName n := by
  rw [f.names_fragment]
  simp only [List.mem_flatMap, forall_exists_index, and_imp]
  exact ⟨fun h n a ha hn => h a ha n hn, fun h a ha n hn => h n a ha hn⟩

/-- An insert is a template exactly if its table and all columns have plain names. -/
theorem Insert.isTemplate_iff {objects : Value} {force : Bool} {st : Statement}
    (h : build .mysql r objects force = .ok (some st)) :
    ∃ table, Sql.identifier r.table = .ok table ∧
      (IsTemplate st ↔ Sql.IsPlainName table ∧ ∀ c ∈ r.codec.columnNames, Sql.IsPlainName c) := by
  obtain ⟨-, items, first, rest, table, -, -, -, htable, rfl⟩ := build_eq_some_iff.mp h
  have hwritten : written .mysql r.codec.columnNames first = r.codec.columnNames := rfl
  refine ⟨table, htable, ?_⟩
  rw [Sql.isTemplate_iff (isTame_fragment _ _ _ _), Fragment.HasPlainNames, names_fragment, hwritten,
    List.forall_mem_cons]

/-- An update is a template exactly if its table, the columns it sets and its filter have plain
names. -/
theorem Update.isTemplate_iff {force : Bool} {change : Value × Value} {st : Statement}
    (h : buildOne .mysql r force change = .ok (some st)) :
    ∃ table row f, Sql.identifier r.table = .ok table ∧
      r.codec.toRow change.2 (!force) true = .ok row ∧
      Filter.compile .mysql .null r.codec.utc change.1 [] = .ok f ∧
      (IsTemplate st ↔
        Sql.IsPlainName table ∧ (∀ e ∈ row, Sql.IsPlainName e.1) ∧ f.HasPlainNames) := by
  obtain ⟨row, hrow, hbuilt⟩ := of_buildOne h
  by_cases hempty : row.isEmpty = true
  · rw [if_pos hempty] at hbuilt
    exact absurd hbuilt (by simp)
  · rw [if_neg hempty] at hbuilt
    obtain ⟨f, table, hf, -, htable, hst⟩ := hbuilt
    obtain rfl := Option.some.inj hst
    refine ⟨table, row, f, htable, hrow, hf, ?_⟩
    rw [Sql.isTemplate_iff (isTame_fragment _ _ _), Fragment.HasPlainNames, names_fragment,
      List.forall_mem_cons, List.forall_mem_append, List.forall_mem_map, f.hasPlainNames_iff]

/-- A delete is a template exactly if its table and its filter have plain names. -/
theorem Delete.isTemplate_iff {condition : Value} {st : Statement}
    (h : buildOne .mysql r condition = .ok st) :
    ∃ table f, Sql.identifier r.table = .ok table ∧
      Filter.compile .mysql .null r.codec.utc condition [] = .ok f ∧
      (IsTemplate st ↔ Sql.IsPlainName table ∧ f.HasPlainNames) := by
  obtain ⟨f, table, hf, -, htable, rfl⟩ := of_buildOne h
  refine ⟨table, f, htable, hf, ?_⟩
  rw [Sql.isTemplate_iff (isTame_fragment _ _), Fragment.HasPlainNames, names_fragment,
    List.forall_mem_cons, f.hasPlainNames_iff]

/-- Whatever is built for a MySQL server, conditions by themselves and the statements of a
repository, does as a template exactly if the names written into it have no percent signs. -/
theorem templates_iff (r : Repository) :
    (∀ (owner : Value) (utc : Bool) (query groups : Value) (f : Filter),
      Filter.ofValues .mysql owner utc query groups = .ok f →
        (IsTemplate ((f.fragment .mysql).statement .mysql) ↔ f.HasPlainNames)) ∧
    (∀ (s : Select) (st : Statement),
      (∀ c ∈ s.columns, Sql.isRawValue c ≠ .ok true) → s.build .mysql r = .ok st →
        ∃ f, s.fragment .mysql r = .ok f ∧ (IsTemplate st ↔ f.HasPlainNames)) ∧
    (∀ (s : Select) (aggregates : List Aggregate) (st : Statement),
      s.buildAggregates .mysql r aggregates = .ok st →
        ∃ f, s.aggregateFragment .mysql r aggregates = .ok f ∧ (IsTemplate st ↔ f.HasPlainNames)) ∧
    (∀ (objects : Value) (force : Bool) (st : Statement),
      Insert.build .mysql r objects force = .ok (some st) →
        ∃ table, Sql.identifier r.table = .ok table ∧
          (IsTemplate st ↔ Sql.IsPlainName table ∧ ∀ c ∈ r.codec.columnNames, Sql.IsPlainName c)) ∧
    (∀ (changes : List (Value × Value)) (force : Bool) (sts : List Statement),
      Update.build .mysql r changes force = .ok sts →
        ∀ st ∈ sts, ∃ change ∈ changes, ∃ table row f, Sql.identifier r.table = .ok table ∧
          r.codec.toRow change.2 (!force) true = .ok row ∧
          Filter.compile .mysql .null r.codec.utc change.1 [] = .ok f ∧
          (IsTemplate st ↔
            Sql.IsPlainName table ∧ (∀ e ∈ row, Sql.IsPlainName e.1) ∧ f.HasPlainNames)) ∧
    (∀ (conditions : Value) (sts : List Statement),
      Delete.build .mysql r conditions = .ok sts →
        ∃ items, conditions.items = .ok items ∧ ∀ st ∈ sts, ∃ condition ∈ items,
          ∃ table f, Sql.identifier r.table = .ok table ∧
            Filter.compile .mysql .null r.codec.utc condition [] = .ok f ∧
            (IsTemplate st ↔ Sql.IsPlainName table ∧ f.HasPlainNames)) := by
  refine ⟨?_, ?_, ?_, ?_, ?_, ?_⟩
  · intro owner utc query groups f _
    rw [isTemplate_iff f.isTame_fragment, f.hasPlainNames_iff, Fragment.HasPlainNames]
  · intro s st hraw h
    rw [Select.build_eq] at h
    obtain ⟨f, hf, rfl⟩ := map_eq_ok.mp h
    exact ⟨f, hf, isTemplate_iff (Select.isTame_fragment hraw hf)⟩
  · intro s aggregates st h
    rw [Select.buildAggregates_eq] at h
    obtain ⟨f, hf, rfl⟩ := map_eq_ok.mp h
    exact ⟨f, hf, isTemplate_iff (Select.isTame_aggregateFragment hf)⟩
  · intro objects force st h
    exact Insert.isTemplate_iff h
  · intro changes force sts h st hst
    obtain ⟨built, hbuilt, rfl⟩ := functor_map_eq_ok.mp h
    obtain ⟨one, hone, rfl⟩ := List.mem_filterMap.mp hst
    obtain ⟨change, hchange, hchanged⟩ := (mem_iff_of_mapM_eq_ok hbuilt).mp hone
    exact ⟨change, hchange, Update.isTemplate_iff hchanged⟩
  · intro conditions sts h
    obtain ⟨items, hitems, hbuilt⟩ := bind_eq_ok.mp h
    refine ⟨items, hitems, fun st hst => ?_⟩
    obtain ⟨condition, hcondition, hone⟩ := (mem_iff_of_mapM_eq_ok hbuilt).mp hst
    exact ⟨condition, hcondition, Delete.isTemplate_iff hone⟩

/-- Names in which all else stands that templates and quotes are made of. -/
theorem templates_of_plain_names :
    let r : Repository :=
      ⟨.text "t\x60s", ⟨["a s", "\x60?"], [], [], true, true⟩, [], .null, .proper {}⟩
    let query : Value := .record [("a s", .list [.int 1, .text "50%"]), ("\x60?", .text "%s")]
    let f : Filter := ⟨[.oneOf (.plain "a s") [.int 1, .text "50%"],
      .compare (.plain "\x60?") .equal (.text "%s")], []⟩
    let s : Select := { condition := query, columns := [.text "\x60?"] }
    let a : Aggregate :=
      ⟨.sum, .text "n?", .text "a s", .record [("when", query), ("then", .text "%")], none⟩
    let object : Value := .record [("a s", .text "100%"), ("\x60?", .null)]
    IsTemplate ((f.fragment .mysql).statement .mysql) ∧
      (∃ st, s.build .mysql r = .ok st ∧ IsTemplate st) ∧
      (∃ st, s.buildAggregates .mysql r [a] = .ok st ∧ IsTemplate st) ∧
      (∃ st, Insert.build .mysql r (.list [object, object]) false = .ok (some st) ∧ IsTemplate st) ∧
      (∃ sts, Update.build .mysql r [(query, object)] false = .ok sts ∧ ∀ st ∈ sts, IsTemplate st) ∧
      (∃ sts, Delete.build .mysql r (.list [query]) = .ok sts ∧ ∀ st ∈ sts, IsTemplate st) := by
  intro r query f s a object
  obtain ⟨hcompile, hselect, hcompute, hinsert, hupdate, hdelete⟩ := templates_iff r
  have hplain : ∀ c ∈ s.columns, Sql.isRawValue c ≠ .ok true := by
    intro c hc
    obtain rfl := List.mem_singleton.mp hc
    intro hraw
    exact Bool.noConfusion (Except.ok.inj hraw)
  refine ⟨(hcompile .null true query .null f rfl).mpr (by decide), ⟨_, rfl, ?_⟩, ⟨_, rfl, ?_⟩,
    ⟨_, rfl, ?_⟩, ⟨_, rfl, ?_⟩, ⟨_, rfl, ?_⟩⟩
  · obtain ⟨g, hg, htemplate⟩ := hselect s _ hplain rfl
    obtain rfl := Except.ok.inj hg
    exact htemplate.mpr (by decide)
  · obtain ⟨g, hg, htemplate⟩ := hcompute s [a] _ rfl
    obtain rfl := Except.ok.inj hg
    exact htemplate.mpr (by decide)
  · obtain ⟨table, htable, htemplate⟩ := hinsert (.list [object, object]) false _ rfl
    obtain rfl := Except.ok.inj htable
    exact htemplate.mpr (by decide)
  · intro st hst
    obtain ⟨change, hchange, table, row, g, htable, hrow, hg, htemplate⟩ :=
      hupdate [(query, object)] false _ rfl st hst
    obtain rfl := List.mem_singleton.mp hchange
    obtain rfl := Except.ok.inj htable
    obtain rfl := Except.ok.inj hrow
    obtain rfl := Except.ok.inj hg
    exact htemplate.mpr (by decide)
  · intro st hst
    obtain ⟨items, hitems, hall⟩ := hdelete (.list [query]) _ rfl
    obtain rfl := Except.ok.inj hitems
    obtain ⟨condition, hcondition, table, g, htable, hg, htemplate⟩ := hall st hst
    obtain rfl := List.mem_singleton.mp hcondition
    obtain rfl := Except.ok.inj htable
    obtain rfl := Except.ok.inj hg
    exact htemplate.mpr (by decide)

/-- A condition on a column with a percent sign in its name binds a value, and its text does not do:
there is a percent sign where no placeholder begins, and formatting fails on it. -/
theorem percent_in_name_misleads :
    ∃ f : Filter,
      Filter.ofValues .mysql .null true (.record [("a%b", .int 1)]) .null = .ok f ∧
      let st := (f.fragment .mysql).statement .mysql
      st.sql = "\x60a%b\x60 = %s" ∧ st.params.length = 1 ∧
        Sql.percents st.sql = [2, 8] ∧ Sql.places .mysql st.sql = [8] ∧ ¬ IsTemplate st ∧
        ∀ value, Sql.format st.sql.toList [value] = none := by
  refine ⟨⟨[.compare (.plain "a%b") .equal (.int 1)], []⟩, rfl, by decide, rfl, by decide, by decide,
    ?_, fun value => rfl⟩
  intro htemplate
  exact absurd htemplate.percents (by decide)

end Quarry
