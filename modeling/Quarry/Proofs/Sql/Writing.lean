import Quarry.Proofs.Sql.ClauseText

/-!
# Text and values are written in step

A statement is written as a text and, apart from it, a list of values; nothing in the writing itself
keeps one with the other. Here it is shown that they do not get out of step: what is written of a
condition or an aggregate is what the pieces of it print and bind, placeholders and values coming
from the same slots (`Filter.write_eq`, `Aggregate.write_eq`). So whatever is proved about fragments
holds of what is written.
-/

set_option autoImplicit false

namespace Quarry.Sql

variable {α : Type} {d : Dialect}

/-! ## The text of a fragment -/

/-- Nothing has no text. -/
theorem sql_nil : Fragment.sql d [] = "" := rfl

/-- The text of a fragment begins with that of its first piece. -/
theorem sql_cons (p : Piece) (f : Fragment) :
    Fragment.sql d (p :: f) = String.ofList (p.chars d) ++ Fragment.sql d f := by
  simp [Fragment.sql]

/-- The texts of two fragments stand one behind the other. -/
theorem sql_append (f g : Fragment) :
    Fragment.sql d (f ++ g) = Fragment.sql d f ++ Fragment.sql d g := by
  simp [Fragment.sql]

/-- Joining fragments joins their texts. -/
theorem sql_joined (separator : String) (fs : List Fragment) :
    Fragment.sql d (Fragment.joined separator fs) =
      separator.intercalate (fs.map (Fragment.sql d)) := by
  induction fs with
  | nil => rfl
  | cons f rest ih =>
    cases rest with
    | nil => simp [Fragment.joined]
    | cons g rest =>
      rw [Grammar.joined_cons_cons, sql_append, sql_cons, ih]
      simp [Piece.chars, String.append_assoc]

/-- Slots are printed as so many placeholders. -/
theorem sql_slots (vs : List Value) :
    Fragment.sql d (Fragment.slots vs) = d.placeholders vs.length := by
  have hslot (v : Value) : Fragment.sql d [.slot v] = d.placeholder := by
    simp [sql_cons, sql_nil, Piece.chars]
  rw [Fragment.slots, sql_joined, List.map_map, Dialect.placeholders]
  simp only [Function.comp_def, hslot, List.map_const']

/-- Parentheses stand around the text of what is in them. -/
theorem sql_parenthesized (f : Fragment) :
    Fragment.sql d f.parenthesized = "(" ++ Fragment.sql d f ++ ")" := by
  simp [Fragment.parenthesized, sql_cons, sql_append, sql_nil, Piece.chars, String.append_assoc]

/-! ## Drafts -/

namespace Draft

/-- Each member of a list adds its text to the texts and its values to the values. -/
theorem foldl_add (write : α → Statement) (xs : List α) (draft : Draft) :
    xs.foldl (fun draft x => draft.add (write x).sql (write x).params) draft =
      ⟨draft.texts ++ xs.map fun x => (write x).sql,
        draft.params ++ xs.flatMap fun x => (write x).params⟩ := by
  induction xs generalizing draft with
  | nil => simp
  | cons x rest ih =>
    rw [List.foldl_cons, ih]
    simp [add, List.append_assoc]

/-- Statements are written one by one, texts and parameters apart. -/
theorem ofList_eq (write : α → Statement) (xs : List α) :
    ofList write xs = ⟨xs.map fun x => (write x).sql, xs.flatMap fun x => (write x).params⟩ :=
  foldl_add write xs {}

/-- If the members of a list are written as their fragments are, then so is the list. -/
theorem joined_ofList {write : α → Statement} {pieces : α → Fragment}
    (hwrite : ∀ x, write x = (pieces x).statement d) (separator : String) (xs : List α) :
    (ofList write xs).joined separator = (Fragment.joined separator (xs.map pieces)).statement d := by
  rw [ofList_eq, joined, Fragment.statement, sql_joined, params_joined, List.flatMap_map, List.map_map]
  simp [Function.comp_def, hwrite, Fragment.statement]

end Draft

/-! ## Conditions -/

/-- What is written for a JSON test is the statement of its fragment. -/
theorem JsonTest.write_eq {column : Fragment} (hcolumn : Fragment.params column = []) (t : JsonTest) :
    t.write d (column.sql d) = (t.fragment d column).statement d := by
  unfold write fragment Fragment.statement
  cases t <;> cases d <;>
    simp [sql_cons, sql_append, sql_nil, sql_slots, hcolumn, Piece.chars, String.append_assoc,
      -Nat.toString_eq_repr]

/-- What is written for an atom is the statement of its fragment. -/
theorem Atom.write_eq (a : Atom) : a.write d = (a.fragment d).statement d := by
  have htests (c : ColumnRef) : ∀ t : JsonTest,
      t.write d (c.fragment.sql d) = (t.fragment d c.fragment).statement d :=
    JsonTest.write_eq (params_column c)
  cases a with
  | json c t => exact htests c t
  | anyJson c ts =>
    simp only [write, fragment, Draft.joined_ofList (htests c)]
    simp [Fragment.statement, sql_parenthesized]
  | _ =>
    simp [write, fragment, Fragment.statement, sql_cons, sql_append, sql_nil, sql_slots, Piece.chars,
      String.append_assoc]

/-- Every atom has a text. -/
theorem Atom.sql_ne_empty (a : Atom) : Fragment.sql d (a.fragment d) ≠ "" := by
  cases a with
  | json c t =>
    cases t <;> cases d <;>
      simp [fragment, JsonTest.fragment, sql_cons, Piece.chars, String.append_eq_empty_iff]
  | anyJson c ts => simp [fragment, sql_parenthesized, String.append_eq_empty_iff]
  | _ => simp [fragment, sql_cons, sql_append, sql_nil, Piece.chars, String.append_eq_empty_iff]

/-- What is joined has no text only if there is nothing to join. -/
theorem sql_joined_eq_empty_iff {separator : String} {fs : List Fragment}
    (htexts : ∀ f ∈ fs, Fragment.sql d f ≠ "") :
    Fragment.sql d (Fragment.joined separator fs) = "" ↔ fs = [] := by
  cases fs with
  | nil => simp [Fragment.joined, sql_nil]
  | cons f rest =>
    have hf : Fragment.sql d f ≠ "" := htexts f List.mem_cons_self
    cases rest with
    | nil => simpa [Fragment.joined] using hf
    | cons g rest => simp [Grammar.joined_cons_cons, sql_append, String.append_eq_empty_iff, hf]

namespace Filter

/-- What is written for some atoms is the statement of their conjunction. -/
theorem writeAll_eq (atoms : List Atom) : writeAll d atoms = (conjunction d atoms).statement d :=
  Draft.joined_ofList Atom.write_eq " AND " atoms

/-- A conjunction is empty exactly if it has no atoms. -/
theorem sql_conjunction_eq_empty_iff (atoms : List Atom) :
    Fragment.sql d (conjunction d atoms) = "" ↔ atoms = [] := by
  rw [conjunction, sql_joined_eq_empty_iff, List.map_eq_nil_iff]
  intro f hf
  obtain ⟨a, -, rfl⟩ := List.mem_map.mp hf
  exact a.sql_ne_empty

/-- A disjunction is empty exactly if it has no groups. -/
theorem sql_disjunction_eq_empty_iff (groups : List (List Atom)) :
    Fragment.sql d (disjunction d groups) = "" ↔ groups = [] := by
  rw [disjunction, sql_joined_eq_empty_iff, List.map_eq_nil_iff]
  intro f hf
  obtain ⟨g, -, rfl⟩ := List.mem_map.mp hf
  simp [sql_parenthesized, String.append_eq_empty_iff]

/-- The groups are written behind what has been bound before. -/
theorem foldl_groups (groups : List (List Atom)) (params : List Value) :
    groups.foldl (fun draft g =>
        draft.add ("(" ++ (writeAll d g).sql ++ ")") (writeAll d g).params) (⟨[], params⟩ : Draft) =
      ⟨groups.map fun g => Fragment.sql d (conjunction d g).parenthesized,
        params ++ Fragment.params (disjunction d groups)⟩ := by
  have hfold := Draft.foldl_add
    (fun g => (⟨"(" ++ (writeAll d g).sql ++ ")", (writeAll d g).params⟩ : Statement)) groups ⟨[], params⟩
  refine hfold.trans ?_
  simp [disjunction, params_joined, List.flatMap_map, sql_parenthesized, writeAll_eq, Fragment.statement]

/-- What is written of a filter is what its pieces print and bind. -/
theorem write_eq (f : Filter) : f.write d = (f.fragment d).statement d := by
  have hothers : " OR ".intercalate (f.groups.map fun g => Fragment.sql d (conjunction d g).parenthesized) =
      Fragment.sql d (disjunction d f.groups) := by
    rw [disjunction, sql_joined, List.map_map]
    rfl
  have hmain := sql_conjunction_eq_empty_iff (d := d) f.main
  have hgroups := sql_disjunction_eq_empty_iff (d := d) f.groups
  simp only [write, foldl_groups, Draft.joined, hothers]
  simp only [writeAll_eq, Fragment.statement, ne_eq, hmain, hgroups]
  unfold fragment
  by_cases hnoGroups : f.groups = []
  · by_cases hnoMain : f.main = []
    · simp [hnoGroups, hnoMain, conjunction, disjunction, Fragment.joined]
    · simp [hnoGroups, hnoMain, disjunction, Fragment.joined]
  · by_cases hnoMain : f.main = []
    · simp [hnoGroups, hnoMain, conjunction, Fragment.joined]
    · have hbetween (text : String) : ") AND (" ++ text = ")" ++ (" AND " ++ ("(" ++ text)) := by
        rw [← String.append_assoc, ← String.append_assoc]
        rfl
      simp [hnoGroups, hnoMain, sql_append, sql_cons, sql_parenthesized, Piece.chars, hbetween,
        String.append_assoc]

/-- A filter says nothing exactly if nothing is written of it. -/
theorem sql_fragment_eq_empty_iff (f : Filter) :
    Fragment.sql d (f.fragment d) = "" ↔ f.isEmpty = true := by
  have hmain := sql_conjunction_eq_empty_iff (d := d) f.main
  have hgroups := sql_disjunction_eq_empty_iff (d := d) f.groups
  unfold fragment isEmpty
  by_cases hnoGroups : f.groups = []
  · simp [hnoGroups, hmain]
  · by_cases hnoMain : f.main = []
    · simp [hnoGroups, hnoMain, hgroups]
    · simp [hnoGroups, hnoMain, sql_append, sql_parenthesized, String.append_eq_empty_iff]

/-- The WHERE clause of what is written of a filter is that of its pieces. -/
theorem whereText_write (f : Filter) : (f.write d).whereText = Fragment.sql d (f.whereFragment d) := by
  have hempty := f.sql_fragment_eq_empty_iff (d := d)
  unfold Statement.whereText whereFragment
  simp only [write_eq, Fragment.statement, hempty]
  split
  · rfl
  · simp [sql_cons, Piece.chars]

/-- A WHERE clause binds what its filter binds. -/
theorem params_whereFragment (f : Filter) :
    Fragment.params (f.whereFragment d) = (f.write d).params := by
  rw [write_eq, whereFragment]
  split
  next hempty =>
    obtain ⟨main, groups⟩ := f
    obtain ⟨rfl, rfl⟩ : main = [] ∧ groups = [] := by simpa [isEmpty] using hempty
    rfl
  next => rfl

end Filter

/-! ## Aggregates -/

namespace Aggregate

/-- What is written around an expression binds nothing. -/
theorem statement_call (a : Aggregate) (label : String) (expression : Fragment) :
    (a.call label expression).statement d =
      ⟨a.function.label ++ "(" ++ Fragment.sql d expression ++ ") AS " ++ d.quoteName label,
        Fragment.params expression⟩ := by
  simp [call, Fragment.statement, sql_cons, sql_append, sql_nil, Piece.chars, Dialect.quoteName,
    String.append_assoc]

/-- A case binds the values of its condition and then, unless rows are only counted, its own. -/
theorem statement_caseExpression (a : Aggregate) (case : Record) (filter : Filter) :
    (a.caseExpression d case filter).statement d =
      if a.function = .count then
        ⟨"CASE WHEN " ++ (filter.write d).sql ++ " THEN 1 END", (filter.write d).params⟩
      else
        ⟨"CASE WHEN " ++ (filter.write d).sql ++ " THEN " ++ d.placeholder ++ " ELSE " ++ d.placeholder ++
            " END",
          (filter.write d).params ++ [case.valueOr "then" (.int 1), case.valueOr "else" (.int 0)]⟩ := by
  rw [Filter.write_eq]
  unfold caseExpression
  split <;>
    simp [Fragment.statement, sql_cons, sql_append, sql_nil, Piece.chars, String.append_assoc]

/-- What is written of an aggregate is what its pieces print and bind. -/
theorem write_eq (owner : Value) (utc : Bool) (a : Aggregate) :
    a.write d owner utc = (a.fragment d owner utc).map (Fragment.statement d) := by
  unfold write fragment
  cases identifier a.label with
  | error e => rfl
  | ok label =>
    cases a.activeCase d owner utc with
    | error e => rfl
    | ok active =>
      cases active with
      | none =>
        show (a.plainExpression owner >>= fun f => _) = (a.plainExpression owner >>= fun f => _).map _
        cases hexpression : a.plainExpression owner with
        | error e => rfl
        | ok expression =>
          have hfixed : Fragment.isFixed false expression = true := isFixed_plainExpression hexpression
          show Except.ok _ = Except.ok ((a.call label expression).statement d)
          rw [statement_call, Fragment.params_of_isFixed hfixed]
      | some active =>
        show _ = Except.ok ((a.call label (a.caseExpression d active.1 active.2)).statement d)
        obtain ⟨case, filter⟩ := active
        have hcase := a.statement_caseExpression (d := d) case filter
        have hsql : Fragment.sql d (a.caseExpression d case filter) = _ := congrArg Statement.sql hcase
        have hparams : Fragment.params (a.caseExpression d case filter) = _ :=
          congrArg Statement.params hcase
        rw [statement_call, hsql, hparams]
        split <;> rfl

end Aggregate

end Quarry.Sql
