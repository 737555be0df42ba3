import Quarry.Proofs.Repository.Built
import Quarry.Proofs.Sql.ClauseText
import Quarry.Proofs.Sql.Encoding

/-!
# What statements bind

A select binds what its condition and its groups bind. A select of aggregates first binds, for each
aggregate with an active case, what the condition of the case binds and then, unless rows are only
counted, the two branches of the case. The branches are bound as they stand.
-/

set_option autoImplicit false

namespace Quarry

open Sql (Aggregate Binds Dialect Filter Fragment Leaks Piece Statement fieldsOf members sequence?
  suppliedIn)

variable {d : Dialect} {r : Repository} {s : Select} {st : Statement}

/-! ## Selects -/

/-- The parameters of the `WHERE` part are those of the filter. -/
theorem Sql.Filter.params_where (f : Filter) :
    Fragment.params (f.whereFragment d) = Fragment.params (f.fragment d) := by
  unfold whereFragment
  split_ifs with hempty
  · obtain ⟨main, groups⟩ := f
    obtain ⟨rfl, rfl⟩ : main = [] ∧ groups = [] := by simpa [isEmpty] using hempty
    rfl
  · rfl

/-- A select binds the encodings of what its condition and its groups supply. -/
theorem Select.binds_build (h : s.build d r = .ok st) :
    Binds r.codec.utc (suppliedIn (s.condition :: s.groups)) st.params := by
  obtain ⟨columns, f, tables, order, limits, hcolumns, hf, htables, horder, hlimits, rfl⟩ := of_build h
  have hlist : columns.isFixed true = true := Sql.isFixed_columnList (by simp) hcolumns
  have hfrom : tables.isFixed true = true := isFixed_fromClause htables
  have hby : order.isFixed true = true := Sql.isFixed_orderClause horder
  have hcount : limits.isFixed true = true := Sql.isFixed_limitClause hlimits
  have hparams : Fragment.params
      (.word "SELECT " :: (columns ++ tables ++ f.whereFragment d ++ order ++ limits)) =
        Fragment.params (f.fragment d) := by
    simp [Fragment.params_of_isFixed hlist, Fragment.params_of_isFixed hfrom,
      Fragment.params_of_isFixed hby, Fragment.params_of_isFixed hcount, f.params_where]
  rw [Fragment.statement, hparams]
  exact Sql.compile_binds hf

/-! ## Aggregates -/

namespace Sql.Aggregate

variable {a : Aggregate} {owner : Value} {utc : Bool}

/-- The branches of a case, which a count does not have. -/
def branches (a : Aggregate) (case : Record) : List Value :=
  if a.function = .count then []
  else [case.valueOr "then" (.int 1), case.valueOr "else" (.int 0)]

/-- What is active is a case with a condition that was compiled. -/
theorem compile_of_activeCase {case : Record} {f : Filter}
    (h : a.activeCase d owner utc = .ok (some (case, f))) :
    Filter.compile d owner utc (case.valueOr "when" .null) [] = .ok f := by
  obtain ⟨fields, -, hrest⟩ := bind_eq_ok.mp h
  dsimp only at hrest
  split_ifs at hrest
  · obtain ⟨filter, hfilter, hactive⟩ := bind_eq_ok.mp hrest
    split_ifs at hactive
    · simp at hactive
    · obtain ⟨rfl, rfl⟩ : fields = case ∧ filter = f := by simpa using hactive
      exact hfilter
  · simp at hrest

/-- The values that the active case of an aggregate binds. -/
def caseValues (d : Dialect) (a : Aggregate) : Option (Record × Filter) → List Value
  | none => []
  | some (case, f) => Fragment.params (f.fragment d) ++ a.branches case

/-- The parameters of an aggregate are the values of its case. -/
theorem params_fragment {f : Fragment} (h : a.fragment d owner utc = .ok f) :
    ∃ active, a.activeCase d owner utc = .ok active ∧ Fragment.params f = a.caseValues d active := by
  obtain ⟨label, active, -, hactive, hf⟩ := of_fragment h
  refine ⟨active, hactive, ?_⟩
  cases active with
  | none =>
    obtain ⟨expression, hexpression, rfl⟩ := hf
    have hfixed : expression.isFixed true = true := isFixed_plainExpression hexpression
    simp [call, caseValues, Fragment.params_of_isFixed hfixed]
  | some active =>
    obtain ⟨case, filter⟩ := active
    subst hf
    by_cases hcount : a.function = .count
    · simp [call, caseExpression, caseValues, branches, hcount]
    · simp [call, caseExpression, caseValues, branches, hcount]

/-- What an aggregate binds can be bound exactly when the condition of its case does not leak and
the branches can be bound. -/
theorem all_isBindable_iff {f : Fragment} (h : a.fragment d owner utc = .ok f) :
    (∀ p ∈ Fragment.params f, p.isBindable = true) ↔
      ∀ case filter, a.activeCase d owner utc = .ok (some (case, filter)) →
        (∀ e ∈ fieldsOf (case.valueOr "when" .null), ¬ Leaks e.2) ∧
          ∀ v ∈ a.branches case, v.isBindable = true := by
  obtain ⟨active, hactive, hparams⟩ := params_fragment h
  rw [hactive, hparams]
  cases active with
  | none => simp [caseValues]
  | some active =>
    obtain ⟨case, filter⟩ := active
    have hbinds := compile_binds (compile_of_activeCase hactive)
    rw [caseValues, List.forall_mem_append, hbinds.all_isBindable_iff, unset_notMem_suppliedIn_iff,
      List.forall_mem_singleton]
    constructor
    · intro hall case' filter' heq
      obtain ⟨rfl, rfl⟩ : case = case' ∧ filter = filter' := by simpa using heq
      exact hall
    · intro hall
      exact hall case filter rfl

end Sql.Aggregate

/-- A select of aggregates binds what its aggregates bind and what its condition binds. -/
theorem Select.mem_params_buildAggregates {aggregates : List Aggregate}
    (h : s.buildAggregates d r aggregates = .ok st) {p : Value} :
    p ∈ st.params ↔
      (∃ a ∈ aggregates, ∃ f, a.fragment d (s.owner r) r.codec.utc = .ok f ∧
        p ∈ Fragment.params f) ∨
      ∃ f, s.filter d r = .ok f ∧ p ∈ Fragment.params (f.fragment d) := by
  obtain ⟨parts, f, tables, hparts, hf, htables, rfl⟩ := of_buildAggregates h
  have hfrom : tables.isFixed true = true := isFixed_fromClause htables
  have hparams : Fragment.params
      (.word "SELECT " :: (Fragment.joined ", " parts ++ tables ++ f.whereFragment d)) =
        parts.flatMap Fragment.params ++ Fragment.params (f.fragment d) := by
    simp [Fragment.params_of_isFixed hfrom, f.params_where, Sql.params_joined]
  rw [Fragment.statement, hparams, List.mem_append, List.mem_flatMap, hf]
  refine or_congr ?_ (by simp)
  constructor
  · rintro ⟨part, hpart, hp⟩
    obtain ⟨a, ha, hfragment⟩ := (mem_iff_of_mapM_eq_ok hparts).mp hpart
    exact ⟨a, ha, part, hfragment, hp⟩
  · rintro ⟨a, ha, part, hfragment, hp⟩
    exact ⟨part, (mem_iff_of_mapM_eq_ok hparts).mpr ⟨a, ha, hfragment⟩, hp⟩

section Aggregates

variable {aggregates : List Aggregate}

/-- Where a parameter of a select of aggregates comes from. -/
theorem Select.source_of_buildAggregates (h : s.buildAggregates d r aggregates = .ok st) {p : Value}
    (hp : p ∈ st.params) :
    (∃ v ∈ suppliedIn (s.condition :: s.groups), Value.parameter r.codec.utc v = .ok p) ∨
    ∃ a ∈ aggregates, ∃ case filter,
      a.activeCase d (s.owner r) r.codec.utc = .ok (some (case, filter)) ∧
        ((∃ v ∈ suppliedIn [case.valueOr "when" .null], Value.parameter r.codec.utc v = .ok p) ∨
          p ∈ a.branches case) := by
  obtain ⟨a, ha, part, hpart, hp⟩ | ⟨f, hf, hp⟩ := (mem_params_buildAggregates h).mp hp
  · right
    obtain ⟨active, hactive, hparams⟩ := Aggregate.params_fragment hpart
    rw [hparams] at hp
    cases active with
    | none => simp [Aggregate.caseValues] at hp
    | some active =>
      refine ⟨a, ha, active.1, active.2, hactive, ?_⟩
      obtain hp | hp := List.mem_append.mp hp
      · left
        exact (Sql.compile_binds (Aggregate.compile_of_activeCase hactive)).mem hp
      · right
        exact hp
  · left
    exact (Sql.compile_binds hf).mem hp

/-- The parameters of a select of aggregates can be bound exactly if no entry leaks. -/
theorem Select.all_isBindable_buildAggregates (h : s.buildAggregates d r aggregates = .ok st) :
    (∀ p ∈ st.params, p.isBindable = true) ↔
      (∀ q ∈ s.condition :: s.groups, ∀ e ∈ fieldsOf q, ¬ Leaks e.2) ∧
      ∀ a ∈ aggregates, ∀ case filter,
        a.activeCase d (s.owner r) r.codec.utc = .ok (some (case, filter)) →
          (∀ e ∈ fieldsOf (case.valueOr "when" .null), ¬ Leaks e.2) ∧
            ∀ v ∈ a.branches case, v.isBindable = true := by
  obtain ⟨parts, f, -, hparts, hf, -, -⟩ := of_buildAggregates h
  have hfilter := (Sql.compile_binds hf).all_isBindable_iff
  rw [Sql.unset_notMem_suppliedIn_iff] at hfilter
  have hmem (p : Value) := mem_params_buildAggregates h (p := p)
  constructor
  · intro hall
    refine ⟨hfilter.mp ?_, ?_⟩
    · intro p hp
      exact hall p ((hmem p).mpr (.inr ⟨f, hf, hp⟩))
    · intro a ha case filter hactive
      obtain ⟨part, -, hpart⟩ := exists_of_mapM_eq_ok hparts ha
      refine (Aggregate.all_isBindable_iff hpart).mp ?_ case filter hactive
      intro p hp
      exact hall p ((hmem p).mpr (.inl ⟨a, ha, part, hpart, hp⟩))
  · rintro ⟨hleak, hcases⟩ p hp
    obtain ⟨a, ha, part, hpart, hp⟩ | ⟨g, hg, hp⟩ := (hmem p).mp hp
    · exact (Aggregate.all_isBindable_iff hpart).mpr (hcases a ha) p hp
    · obtain rfl := Except.ok.inj (hf.symm.trans hg)
      exact hfilter.mpr hleak p hp

end Aggregates

/-! ## All statements -/

/-- The parameters of conditions and selects are the encodings of what they supply, moments by the
rule of the repository, and those of aggregates are too, but for the branches of their cases. They
can be bound exactly when no value leaks and, with aggregates, the branches can be bound as they
stand. -/
theorem params_encoded_iff (d : Dialect) :
    (∀ (owner : Value) (utc : Bool) (query groups : Value) (f : Filter),
      Filter.ofValues d owner utc query groups = .ok f →
        Binds utc (suppliedIn (query :: members groups)) (Fragment.params (f.fragment d)) ∧
        ((∀ p ∈ Fragment.params (f.fragment d), p.isBindable = true) ↔
          ∀ q ∈ query :: members groups, ∀ e ∈ fieldsOf q, ¬ Leaks e.2)) ∧
    (∀ (r : Repository) (s : Select) (st : Statement), s.build d r = .ok st →
      Binds r.codec.utc (suppliedIn (s.condition :: s.groups)) st.params ∧
      ((∀ p ∈ st.params, p.isBindable = true) ↔
        ∀ q ∈ s.condition :: s.groups, ∀ e ∈ fieldsOf q, ¬ Leaks e.2)) ∧
    (∀ (r : Repository) (s : Select) (aggregates : List Aggregate) (st : Statement),
      s.buildAggregates d r aggregates = .ok st →
        (∀ p ∈ st.params,
          (∃ v ∈ suppliedIn (s.condition :: s.groups), Value.parameter r.codec.utc v = .ok p) ∨
          ∃ a ∈ aggregates, ∃ case filter,
            a.activeCase d (s.owner r) r.codec.utc = .ok (some (case, filter)) ∧
              ((∃ v ∈ suppliedIn [case.valueOr "when" .null],
                Value.parameter r.codec.utc v = .ok p) ∨ p ∈ a.branches case)) ∧
        ((∀ p ∈ st.params, p.isBindable = true) ↔
          (∀ q ∈ s.condition :: s.groups, ∀ e ∈ fieldsOf q, ¬ Leaks e.2) ∧
          ∀ a ∈ aggregates, ∀ case filter,
            a.activeCase d (s.owner r) r.codec.utc = .ok (some (case, filter)) →
              (∀ e ∈ fieldsOf (case.valueOr "when" .null), ¬ Leaks e.2) ∧
                ∀ v ∈ a.branches case, v.isBindable = true)) := by
  refine ⟨?_, ?_, ?_⟩
  · intro owner utc query groups f h
    have hbinds := Sql.compile_binds (Sql.compile_of_ofValues h)
    exact ⟨hbinds, by rw [hbinds.all_isBindable_iff, Sql.unset_notMem_suppliedIn_iff]⟩
  · intro r s st h
    have hbinds := Select.binds_build h
    exact ⟨hbinds, by rw [hbinds.all_isBindable_iff, Sql.unset_notMem_suppliedIn_iff]⟩
  · intro r s aggregates st h
    exact ⟨fun p hp => Select.source_of_buildAggregates h hp, Select.all_isBindable_buildAggregates h⟩

/-- Values of kinds that have to be encoded, and values that were not given, where they do no
harm. -/
theorem params_encoded_of_given :
    let r : Repository := ⟨.text "t", ⟨["a"], [], [], true, true⟩, [], .null, .proper {}⟩
    let query : Value := .record [("a", .bool true), ("b", .list [.int 1, .unset]), ("c", .unset),
      ("d", .record [("operator", .text "IN_JSON"),
        ("value", .list [.list [.bool false, .unset], .tuple [.int 0, .int 0]])])]
    let a : Aggregate :=
      ⟨.sum, .text "n", .text "a", .record [("when", query), ("then", .int 2)], none⟩
    (∃ f, Filter.ofValues .sqlite .null true query .null = .ok f ∧
      ∀ p ∈ Fragment.params (f.fragment .sqlite), p.isBindable = true) ∧
    (∃ st, Select.build .sqlite r { condition := query } = .ok st ∧
      ∀ p ∈ st.params, p.isBindable = true) ∧
    (∃ st, Select.buildAggregates .sqlite r { condition := query } [a] = .ok st ∧
      ∀ p ∈ st.params, p.isBindable = true) := by
  intro r query a
  obtain ⟨hcompile, hselect, hcompute⟩ := params_encoded_iff .sqlite
  have hsafe : ∀ e ∈ fieldsOf query, ¬ Leaks e.2 := by
    intro e he hleaks
    simp only [query, fieldsOf, List.mem_cons, List.not_mem_nil, or_false] at he
    obtain rfl | rfl | rfl | rfl := he
    · exact absurd hleaks.1 (by decide)
    · exact absurd hleaks.1 (by decide)
    · exact absurd hleaks.1 (by decide)
    · exact absurd hleaks.2.1 (by
        simp [Sql.elements, fieldsOf, Record.getD, Record.get?, sequence?])
  have hall : ∀ q ∈ [query], ∀ e ∈ fieldsOf q, ¬ Leaks e.2 := by
    simpa using hsafe
  refine ⟨⟨_, rfl, (hcompile .null true query .null _ rfl).2.mpr hall⟩,
    ⟨_, rfl, (hselect r { condition := query } _ rfl).2.mpr hall⟩,
    ⟨_, rfl, (hcompute r { condition := query } [a] _ rfl).2.mpr ⟨hall, ?_⟩⟩⟩
  intro b hb case filter hactive
  obtain rfl := List.mem_singleton.mp hb
  obtain rfl : [("when", query), ("then", .int 2)] = case := by
    have hcase := congrArg (fun x => x.toOption.join.map Prod.fst) hactive
    exact Option.some.inj hcase
  refine ⟨hsafe, ?_⟩
  intro v hv
  obtain rfl | rfl : v = .int 2 ∨ v = .int 0 := by
    simpa [Aggregate.branches, a, Record.valueOr, Record.get?] using hv
  · rfl
  · rfl

/-- A gap in a sub-array beside another element is bound, and so is a branch that is a truth
value. -/
theorem params_encoded_not_bindable :
    let r : Repository := ⟨.text "t", ⟨["a"], [], [], true, true⟩, [], .null, .proper {}⟩
    let query : Value := .record [("a", .record [("operator", .text "IN_JSON"),
      ("value", .list [.text "x", .list [.int 1, .unset]])])]
    let a : Aggregate := ⟨.sum, .text "n", .text "a",
      .record [("when", .record [("b", .int 1)]), ("then", .bool true)], none⟩
    (¬ ∀ f, Filter.ofValues .sqlite .null true query .null = .ok f →
      ∀ p ∈ Fragment.params (f.fragment .sqlite), p.isBindable = true) ∧
    (¬ ∀ st, Select.build .sqlite r { condition := query } = .ok st →
      ∀ p ∈ st.params, p.isBindable = true) ∧
    ¬ ∀ st, Select.buildAggregates .sqlite r {} [a] = .ok st →
      ∀ p ∈ st.params, p.isBindable = true := by
  intro r query a
  refine ⟨?_, ?_, ?_⟩
  · intro h
    exact Bool.noConfusion (h _ rfl .unset (.tail _ (.tail _ (.head _))))
  · intro h
    exact Bool.noConfusion (h _ rfl .unset (.tail _ (.tail _ (.head _))))
  · intro h
    exact Bool.noConfusion (h _ rfl (.bool true) (.tail _ (.head _)))

end Quarry
