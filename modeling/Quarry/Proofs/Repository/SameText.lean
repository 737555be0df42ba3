import Quarry.Proofs.Repository.Built
import Quarry.Proofs.Row.Object
import Quarry.Proofs.Sql.Shape
import Quarry.Proofs.Value.Record

/-!
# The text of a statement and its values

The text of a select, an update or a delete is made from its conditions and payloads without looking
at the values in them: two statements built from conditions of the same shape, and from payloads
that supply the same keys, have the same text. So no value can become a part of the text, whatever
it is.
-/

set_option autoImplicit false

namespace Quarry

open Sql (Dialect Filter Fragment SameShape Statement fieldsOf members)

variable {d : Dialect} {r : Repository}

/-- Statements of one outline have one text. -/
theorem Sql.statement_sql_eq {f g : Fragment} (h : f.outline = g.outline) :
    (f.statement d).sql = (g.statement d).sql :=
  Fragment.sql_eq_of_outline h

/-! ## Selects -/

/-- A select with another condition and other groups of the same shape has the same text. -/
theorem Select.build_sql_eq {s : Select} {query : Value} {groups : List Value} {st st' : Statement}
    (hquery : SameShape d r.codec.utc s.condition query)
    (hgroups : List.Forall₂ (SameShape d r.codec.utc) s.groups groups)
    (h : s.build d r = .ok st)
    (h' : Select.build d r { s with condition := query, groups := groups } = .ok st') :
    st.sql = st'.sql := by
  obtain ⟨columns, f, tables, order, limits, hcolumns, hf, htables, horder, hlimits, rfl⟩ :=
    of_build h
  obtain ⟨columns', g, tables', order', limits', hcolumns', hg, htables', horder', hlimits', rfl⟩ :=
    of_build h'
  obtain rfl := Except.ok.inj (hcolumns.symm.trans hcolumns')
  obtain rfl := Except.ok.inj (htables.symm.trans htables')
  obtain rfl := Except.ok.inj (horder.symm.trans horder')
  obtain rfl := Except.ok.inj (hlimits.symm.trans hlimits')
  have hwhere := Filter.outline_where (Sql.compile_outline hquery hgroups hf hg)
  apply Sql.statement_sql_eq
  simp [hwhere]

/-! ## Updates -/

/-- Payloads that supply a value for the same keys. -/
def SamePresent (object object' : Value) : Prop :=
  ∀ name, (Record.getD name (fieldsOf object)).isUnset =
    (Record.getD name (fieldsOf object')).isUnset

namespace Codec

variable {c : Codec} {object object' : Value} {skipAuto : Bool}

/-- The same values are absent from objects with the same present keys. -/
theorem isUnset_valueOf_eq (hpresent : SamePresent object object') {key column : String} {v w : Value}
    (hv : valueOf object key column = .ok v) (hw : valueOf object' key column = .ok w) :
    v.isUnset = w.isUnset := by
  cases object with
  | record fields =>
    cases object' with
    | record fields' =>
      rw [valueOf_record] at hv hw
      obtain rfl := Except.ok.inj hv
      obtain rfl := Except.ok.inj hw
      have hkey : (Record.getD key fields).isUnset = (Record.getD key fields').isUnset := hpresent key
      have hcolumn : (Record.getD column fields).isUnset = (Record.getD column fields').isUnset :=
        hpresent column
      rw [hkey]
      split_ifs
      · rfl
      · exact hcolumn
      · exact hkey
    | _ => simp [valueOf, misfit] at hw
  | _ => simp [valueOf, misfit] at hv

/-- Part of a row has a value for each key that the object supplies and that is not passed over. -/
theorem isSome_encodeKey {key column : String} {x : Option Value}
    (hskip : (skipAuto && c.isAutoSet column) = false)
    (h : c.encodeKey skipAuto true object key column = .ok x) :
    ∃ v, valueOf object key column = .ok v ∧ x.isSome = !v.isUnset := by
  unfold encodeKey at h
  rw [hskip] at h
  obtain ⟨v, hv, hrest⟩ := bind_eq_ok.mp h
  refine ⟨v, hv, ?_⟩
  cases v with
  | unset =>
    obtain rfl := pure_eq_ok.mp hrest
    rfl
  | _ =>
    obtain ⟨stored, -, hstored⟩ := bind_eq_ok.mp hrest
    obtain rfl := pure_eq_ok.mp hstored
    rfl

/-- The same keys are encoded from objects with the same present keys. -/
theorem isSome_encodeKey_eq (hpresent : SamePresent object object') {key column : String}
    {x y : Option Value} (hx : c.encodeKey skipAuto true object key column = .ok x)
    (hy : c.encodeKey skipAuto true object' key column = .ok y) : x.isSome = y.isSome := by
  by_cases hskip : (skipAuto && c.isAutoSet column) = true
  · unfold encodeKey at hx hy
    rw [if_pos hskip] at hx hy
    rw [Except.ok.inj (hx.symm.trans hy)]
  · obtain ⟨v, hv, hxsome⟩ := isSome_encodeKey (by simpa using hskip) hx
    obtain ⟨w, hw, hysome⟩ := isSome_encodeKey (by simpa using hskip) hy
    rw [hxsome, hysome, isUnset_valueOf_eq hpresent hv hw]

/-- Objects with the same present keys are encoded under the same names. -/
theorem names_encodeKeys_eq (hpresent : SamePresent object object') {keys : List String}
    {row row' out out' : Record} (hnames : row.names = row'.names)
    (h : c.encodeKeys skipAuto true object row keys = .ok out)
    (h' : c.encodeKeys skipAuto true object' row' keys = .ok out') : out.names = out'.names := by
  induction keys generalizing row row' with
  | nil =>
    obtain rfl := Except.ok.inj h
    obtain rfl := Except.ok.inj h'
    exact hnames
  | cons key rest ih =>
    obtain ⟨x, hx, hrest⟩ := bind_eq_ok.mp h
    obtain ⟨y, hy, hrest'⟩ := bind_eq_ok.mp h'
    have hsome := isSome_encodeKey_eq hpresent hx hy
    cases x with
    | none =>
      obtain rfl : y = none := by simpa using hsome.symm
      exact ih hnames hrest hrest'
    | some v =>
      obtain ⟨w, rfl⟩ := Option.isSome_iff_exists.mp hsome.symm
      refine ih ?_ hrest hrest'
      rw [Record.names_set, Record.names_set, hnames]

/-- Payloads that supply the same keys set the same columns. -/
theorem names_toRow_eq (hpresent : SamePresent object object') {row row' : Record}
    (h : c.toRow object skipAuto true = .ok row) (h' : c.toRow object' skipAuto true = .ok row') :
    row.names = row'.names :=
  names_encodeKeys_eq hpresent rfl h h'

end Codec

namespace Update

/-- Updates of the same names with filters of one outline have one outline. -/
theorem outline_fragment {table : String} {row row' : Record} {f g : Filter}
    (hnames : row.names = row'.names) (hfilter : f.outline d = g.outline d) :
    (fragment d table row f).outline = (fragment d table row' g).outline := by
  have hset (row : Record) :
      (Fragment.joined ", " (row.map fun e => [.name e.1, .word " = ", .slot e.2])).outline =
        Fragment.joined ", " (row.names.map fun n => [.name n, .word " = ", .slot .null]) := by
    rw [Fragment.outline_joined, Record.names, List.map_map, List.map_map]
    rfl
  have hwhere := Filter.outline_where hfilter
  unfold fragment
  simp only [Fragment.outline_append, hset, hnames, hwhere]

/-- Changes whose conditions are of the same shape and whose payloads supply the same keys. -/
structure SameChange (d : Dialect) (utc : Bool) (change change' : Value × Value) : Prop where
  condition : SameShape d utc change.1 change'.1
  payload : SamePresent change.2 change'.2

/-- The updates for like changes have one text. -/
theorem buildOne_sql_eq {force : Bool} {change change' : Value × Value} {x y : Option Statement}
    (hsame : SameChange d r.codec.utc change change') (hx : buildOne d r force change = .ok x)
    (hy : buildOne d r force change' = .ok y) :
    x.map Statement.sql = y.map Statement.sql := by
  obtain ⟨row, hrow, hbuilt⟩ := of_buildOne hx
  obtain ⟨row', hrow', hbuilt'⟩ := of_buildOne hy
  have hnames := Codec.names_toRow_eq hsame.payload hrow hrow'
  rw [Sql.isEmpty_eq_of_map_eq hnames] at hbuilt
  split_ifs at hbuilt hbuilt'
  · rw [hbuilt, hbuilt']
  · obtain ⟨f, table, hf, -, htable, rfl⟩ := hbuilt
    obtain ⟨g, table', hg, -, htable', rfl⟩ := hbuilt'
    obtain rfl := Except.ok.inj (htable.symm.trans htable')
    have hfilter := Sql.compile_outline hsame.condition .nil hf hg
    exact congrArg some (Sql.statement_sql_eq (outline_fragment hnames hfilter))

/-- All updates for like changes have the same texts. -/
theorem build_sql_eq {force : Bool} {changes changes' : List (Value × Value)}
    {sts sts' : List Statement} (hsame : List.Forall₂ (SameChange d r.codec.utc) changes changes')
    (h : build d r changes force = .ok sts) (h' : build d r changes' force = .ok sts') :
    sts.map Statement.sql = sts'.map Statement.sql := by
  obtain ⟨built, hbuilt, rfl⟩ := functor_map_eq_ok.mp h
  obtain ⟨built', hbuilt', rfl⟩ := functor_map_eq_ok.mp h'
  have hsql := map_eq_of_mapM_eq_ok (g := Option.map Statement.sql) hsame
    (fun _ _ _ _ hchange hx hy => buildOne_sql_eq hchange hx hy) hbuilt hbuilt'
  have hkept (xs : List (Option Statement)) : (xs.filterMap id).map Statement.sql =
      (xs.map (Option.map Statement.sql)).filterMap id := by
    rw [List.map_filterMap, List.filterMap_map]
    rfl
  rw [hkept, hsql, hkept]

end Update

/-! ## Deletes -/

namespace Delete

/-- The deletes for conditions of one shape have one text. -/
theorem buildOne_sql_eq {condition condition' : Value} {st st' : Statement}
    (hsame : SameShape d r.codec.utc condition condition') (h : buildOne d r condition = .ok st)
    (h' : buildOne d r condition' = .ok st') : st.sql = st'.sql := by
  obtain ⟨f, table, hf, -, htable, rfl⟩ := of_buildOne h
  obtain ⟨g, table', hg, -, htable', rfl⟩ := of_buildOne h'
  obtain rfl := Except.ok.inj (htable.symm.trans htable')
  have hfilter := Sql.compile_outline hsame .nil hf hg
  apply Sql.statement_sql_eq
  simp [fragment, Filter.outline_where hfilter]

/-- All deletes for conditions of one shape have the same texts. -/
theorem build_sql_eq {conditions conditions' : Value} {items items' : List Value}
    {sts sts' : List Statement} (hitems : conditions.items = .ok items)
    (hitems' : conditions'.items = .ok items')
    (hsame : List.Forall₂ (SameShape d r.codec.utc) items items')
    (h : build d r conditions = .ok sts) (h' : build d r conditions' = .ok sts') :
    sts.map Statement.sql = sts'.map Statement.sql := by
  rw [build, hitems] at h
  rw [build, hitems'] at h'
  exact map_eq_of_mapM_eq_ok hsame (fun _ _ _ _ hone hx hy => buildOne_sql_eq hone hx hy) h h'

end Delete

/-! ## All statements -/

/-- The texts of two conditions, selects, updates or deletes do not differ unless the shapes of
their conditions or the keys that their payloads supply do. -/
theorem sql_eq_of_sameShape (d : Dialect) :
    (∀ (owner : Value) (utc : Bool) (query query' groups groups' : Value) (f g : Filter),
      SameShape d utc query query' →
      List.Forall₂ (SameShape d utc) (members groups) (members groups') →
      Filter.ofValues d owner utc query groups = .ok f →
      Filter.ofValues d owner utc query' groups' = .ok g →
        ((f.fragment d).statement d).sql = ((g.fragment d).statement d).sql) ∧
    (∀ (r : Repository) (s : Select) (query : Value) (groups : List Value) (st st' : Statement),
      SameShape d r.codec.utc s.condition query →
      List.Forall₂ (SameShape d r.codec.utc) s.groups groups →
      s.build d r = .ok st →
      Select.build d r { s with condition := query, groups := groups } = .ok st' →
        st.sql = st'.sql) ∧
    (∀ (r : Repository) (changes changes' : List (Value × Value)) (force : Bool)
        (sts sts' : List Statement),
      List.Forall₂ (Update.SameChange d r.codec.utc) changes changes' →
      Update.build d r changes force = .ok sts →
      Update.build d r changes' force = .ok sts' →
        sts.map Statement.sql = sts'.map Statement.sql) ∧
    (∀ (r : Repository) (conditions conditions' : Value) (items items' : List Value)
        (sts sts' : List Statement),
      conditions.items = .ok items → conditions'.items = .ok items' →
      List.Forall₂ (SameShape d r.codec.utc) items items' →
      Delete.build d r conditions = .ok sts →
      Delete.build d r conditions' = .ok sts' →
        sts.map Statement.sql = sts'.map Statement.sql) := by
  refine ⟨?_, ?_, ?_, ?_⟩
  · intro owner utc query query' groups groups' f g hquery hgroups hf hg
    have houtline := Sql.compile_outline hquery hgroups (Sql.compile_of_ofValues hf)
      (Sql.compile_of_ofValues hg)
    exact Sql.statement_sql_eq (Filter.outline_fragment houtline)
  · intro r s query groups st st' hquery hgroups h h'
    exact Select.build_sql_eq hquery hgroups h h'
  · intro r changes changes' force sts sts' hsame h h'
    exact Update.build_sql_eq hsame h h'
  · intro r conditions conditions' items items' sts sts' hitems hitems' hsame h h'
    exact Delete.build_sql_eq hitems hitems' hsame h h'

/-- Values of every kind, one of them as much like SQL as can be. -/
theorem sql_eq_of_sameShape_hostile_values :
    let r : Repository := ⟨.text "t", ⟨["a", "b"], [], [], true, true⟩, [], .null, .proper {}⟩
    let like (v : Value) : Value := .record [("operator", .text "LIKE"), ("value", v)]
    let inJson (v : Value) : Value := .record [("operator", .text "IN_JSON"), ("value", v)]
    let query : Value := .record [("a", .text "x"), ("b", .list [.int 1, .unset]),
      ("c", like (.text "y")), ("d", inJson (.list [.list [.int 1, .int 2, .int 1], .list []])),
      ("e", .unset)]
    let hostile : Value := .record [("a", .text "\" OR 1=1 --"), ("b", .tuple [.text "?)", .unset]),
      ("c", like (.int 5)), ("d", inJson (.tuple [.list [.text "]) OR (", .null, .null], .tuple []])),
      ("e", .unset)]
    let object : Value := .record [("a", .int 1), ("b", .unset)]
    let change : Value := .record [("a", .text "1, b = 2")]
    (∃ f g, Filter.ofValues .sqlite .null true query .null = .ok f ∧
      Filter.ofValues .sqlite .null true hostile .null = .ok g ∧
        ((f.fragment .sqlite).statement .sqlite).sql = ((g.fragment .sqlite).statement .sqlite).sql) ∧
    (∃ st st', Select.build .sqlite r { condition := query } = .ok st ∧
      Select.build .sqlite r { condition := hostile } = .ok st' ∧ st.sql = st'.sql) ∧
    (∃ sts sts', Update.build .sqlite r [(query, object)] false = .ok sts ∧
      Update.build .sqlite r [(hostile, change)] false = .ok sts' ∧
        sts.map Statement.sql = sts'.map Statement.sql) ∧
    (∃ sts sts', Delete.build .sqlite r (.list [query]) = .ok sts ∧
      Delete.build .sqlite r (.list [hostile]) = .ok sts' ∧
        sts.map Statement.sql = sts'.map Statement.sql) := by
  intro r like inJson query hostile object change
  obtain ⟨hcompile, hselect, hupdate, hdelete⟩ := sql_eq_of_sameShape .sqlite
  have hlike : Sql.SameOperand .sqlite true .like (.text "y") (.int 5) :=
    .given ⟨nofun, nofun⟩ ⟨nofun, nofun⟩ (.whole nofun nofun rfl)
  have harray : Sql.SameArray .sqlite true [.int 1, .int 2, .int 1]
      [.text "]) OR (", .null, .null] := by
    refine ⟨rfl, ?_⟩
    intro _ ps qs hps hqs
    obtain rfl : [.int 1, .int 2, .int 1] = ps := Except.ok.inj hps
    obtain rfl : [.text "]) OR (", .null, .null] = qs := Except.ok.inj hqs
    rfl
  have hnone : Sql.SameArray .sqlite true [] [] := by
    refine ⟨rfl, ?_⟩
    intro _ ps qs hps hqs
    rw [Except.ok.inj (hps.symm.trans hqs)]
  have hinJson : Sql.SameOperand .sqlite true .inJson
      (.list [.list [.int 1, .int 2, .int 1], .list []])
      (.tuple [.list [.text "]) OR (", .null, .null], .tuple []]) :=
    .given ⟨nofun, nofun⟩ ⟨nofun, nofun⟩
      (.cons (.array rfl rfl harray) (.cons (.array rfl rfl hnone) .nil))
  have hquery : SameShape .sqlite true query hostile :=
    .cons ⟨rfl, .plain trivial trivial⟩ (.cons ⟨rfl, .items rfl rfl rfl⟩
      (.cons ⟨rfl, .operator rfl rfl hlike⟩
        (.cons ⟨rfl, .operator rfl rfl hinJson⟩ (.cons ⟨rfl, .unset⟩ .nil))))
  have hpresent : SamePresent object change := by
    intro name
    by_cases ha : "a" = name
    · simp [object, change, fieldsOf, Record.getD, Record.get?, ha, Value.isUnset]
    · by_cases hb : "b" = name <;>
        simp [object, change, fieldsOf, Record.getD, Record.get?, ha, hb, Value.isUnset]
  exact ⟨⟨_, _, rfl, rfl, hcompile .null true query hostile .null .null _ _ hquery .nil rfl rfl⟩,
    ⟨_, _, rfl, rfl, hselect r { condition := query } hostile [] _ _ hquery .nil rfl rfl⟩,
    ⟨_, _, rfl, rfl, hupdate r [(query, object)] [(hostile, change)] false _ _
      (.cons ⟨hquery, hpresent⟩ .nil) rfl rfl⟩,
    ⟨_, _, rfl, rfl, hdelete r (.list [query]) (.list [hostile]) [query] [hostile] _ _ rfl rfl
      (.cons hquery .nil) rfl rfl⟩⟩

end Quarry
