import Quarry.Proofs.Value.Record
import Quarry.Sql.Fragment

/-!
# The labels of a result

A result row is a record of labels, and a statement that joins two tables may bring two columns of
one name. The cursor of SQLite labels both of them with the name, so that the record has the value
of the last one. The cursor of MySQL puts the table and a dot before a name that is a label already
(`Dialect.labels`). A name without a dot then stands for the first column that has it, and later
tables take nothing away from it.
-/

set_option autoImplicit false

namespace Quarry

namespace Sql.Dialect

variable {d : Dialect} {seen : List String} {table name : String} {xs ys : List (String × String)}

/-- The label of a column of a table behind columns whose labels have been seen. -/
def labelOf (d : Dialect) (seen : List String) (table name : String) : String :=
  if d = .mysql ∧ name ∈ seen then table ++ "." ++ name else name

/-- The labels of columns, each of which is given by its table and its name. -/
def labels (d : Dialect) (seen : List String) : List (String × String) → List String
  | [] => []
  | (table, name) :: rest =>
    d.labelOf seen table name :: d.labels (d.labelOf seen table name :: seen) rest

/-- There is a label for each column. -/
theorem length_labels (d : Dialect) (seen : List String) (xs : List (String × String)) :
    (d.labels seen xs).length = xs.length := by
  induction xs generalizing seen with
  | nil => rfl
  | cons x rest ih => rw [labels, List.length_cons, List.length_cons, ih]

/-- The labels of further columns depend on those before. -/
theorem labels_append (d : Dialect) (seen : List String) (xs ys : List (String × String)) :
    d.labels seen (xs ++ ys) = d.labels seen xs ++ d.labels ((d.labels seen xs).reverse ++ seen) ys := by
  induction xs generalizing seen with
  | nil => rfl
  | cons x rest ih =>
    rw [List.cons_append, labels, labels, ih, List.reverse_cons, List.append_assoc, List.cons_append]
    rfl

/-- In SQLite columns are labelled by their bare names. -/
theorem labels_sqlite (seen : List String) (xs : List (String × String)) :
    sqlite.labels seen xs = xs.map Prod.snd := by
  induction xs generalizing seen with
  | nil => rfl
  | cons x rest ih =>
    have hbare : sqlite.labelOf seen x.1 x.2 = x.2 := if_neg fun h => nomatch h.1
    rw [labels, hbare, ih, List.map_cons]

/-- A label is the bare name, or the one with the table before it. -/
theorem labelOf_eq_or (d : Dialect) (seen : List String) (table name : String) :
    d.labelOf seen table name = name ∨ d.labelOf seen table name = table ++ "." ++ name := by
  unfold labelOf
  split_ifs
  · exact .inr rfl
  · exact .inl rfl

/-- Every name becomes a label, at its first column at the latest. -/
theorem mem_labels (d : Dialect) (seen : List String) (h : name ∈ xs.map Prod.snd) :
    name ∈ seen ∨ name ∈ d.labels seen xs := by
  induction xs generalizing seen with
  | nil => exact absurd h List.not_mem_nil
  | cons x rest ih =>
    by_cases hseen : name ∈ seen
    · exact .inl hseen
    · right
      rw [labels]
      obtain heq | hrest := List.mem_cons.mp h
      · have hbare : d.labelOf seen x.1 x.2 = name := by
          rw [heq]
          exact if_neg fun h => hseen (heq ▸ h.2)
        rw [hbare]
        exact List.mem_cons_self
      · obtain hnow | hlater := ih (d.labelOf seen x.1 x.2 :: seen) hrest
        · obtain hlabel | hbefore := List.mem_cons.mp hnow
          · rw [← hlabel]
            exact List.mem_cons_self
          · exact absurd hbefore hseen
        · exact List.mem_cons_of_mem _ hlater

/-- MySQL gives a name without a dot once. -/
theorem not_mem_labels (hplain : '.' ∉ name.toList) (hseen : name ∈ seen) :
    name ∉ mysql.labels seen xs := by
  induction xs generalizing seen with
  | nil => exact List.not_mem_nil
  | cons x rest ih =>
    rw [labels, List.mem_cons, not_or]
    constructor
    · -- The label would be the bare name, which is taken, or it would have a dot.
      intro hlabel
      apply hplain
      unfold labelOf at hlabel
      split_ifs at hlabel with hagain
      · rw [hlabel]
        simp
      · exact absurd ⟨rfl, hlabel ▸ hseen⟩ hagain
    · exact ih (List.mem_cons_of_mem _ hseen)

/-! ## Columns of the main table -/

variable {α : Type} {names : List String} {g : String → α} {rest : List α}

/-- A label without a dot stands for a column of this name, and for what belongs to it. -/
theorem eq_of_mem_zip_own {f : String × α} (hplain : '.' ∉ f.1.toList)
    (hf : f ∈ (d.labels seen (names.map fun name => (table, name))).zip (names.map g)) : f.2 = g f.1 := by
  induction names generalizing seen with
  | nil => exact absurd hf List.not_mem_nil
  | cons name names ih =>
    obtain rfl | hf := List.mem_cons.mp hf
    · dsimp only at hplain ⊢
      obtain hbare | hdotted := labelOf_eq_or d seen table name
      · rw [hbare]
      · rw [hdotted] at hplain
        simp at hplain
    · exact ih hf

/-- Where labels belong to the columns of a main table and others, the names of the main table's
columns belong to these, unless SQLite brings another column of the name. -/
theorem eq_of_mem_zip_labels (hplain : '.' ∉ name.toList) (hname : name ∈ names)
    (hothers : d = .sqlite → name ∉ ys.map Prod.snd) {f : String × α}
    (hf : f ∈ (d.labels [] (names.map (fun name => (table, name)) ++ ys)).zip (names.map g ++ rest))
    (hlabel : f.1 = name) : f.2 = g name := by
  rw [labels_append, List.zip_append (by rw [length_labels, List.length_map, List.length_map])] at hf
  obtain hown | hother := List.mem_append.mp hf
  · rw [← hlabel] at hplain ⊢
    exact eq_of_mem_zip_own hplain hown
  · have hmem := (List.of_mem_zip hother).1
    rw [hlabel] at hmem
    exfalso
    cases d with
    | sqlite =>
      rw [labels_sqlite] at hmem
      exact hothers rfl hmem
    | mysql =>
      refine not_mem_labels hplain ?_ hmem
      have hown : name ∈ (names.map fun name => (table, name)).map Prod.snd := by simpa using hname
      have hgiven := (mem_labels .mysql [] hown).resolve_left List.not_mem_nil
      simpa using hgiven

/-- Each name of the main table is a label of its own. -/
theorem mem_zip_labels (d : Dialect) (hname : name ∈ names) :
    ∃ f ∈ (d.labels [] (names.map (fun name => (table, name)) ++ ys)).zip (names.map g ++ rest),
      f.1 = name := by
  have hlength : (d.labels [] (names.map fun name => (table, name))).length = (names.map g).length := by
    rw [length_labels, List.length_map, List.length_map]
  have hown : name ∈ (names.map fun name => (table, name)).map Prod.snd := by simpa using hname
  have hgiven := (mem_labels d [] hown).resolve_left List.not_mem_nil
  rw [← List.map_fst_zip (Nat.le_of_eq hlength)] at hgiven
  obtain ⟨f, hf, hlabel⟩ := List.mem_map.mp hgiven
  rw [labels_append, List.zip_append hlength]
  exact ⟨f, List.mem_append_left _ hf, hlabel⟩

end Sql.Dialect

end Quarry
