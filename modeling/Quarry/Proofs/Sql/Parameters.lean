import Mathlib.Algebra.GroupWithZero.Nat
import Quarry.Proofs.Sql.FilterText

/-!
# Parameters of conditions

A tree that was read back shows where its placeholders are, though not what is bound to them. There
are as many as the parameters of the fragment that was printed. So the parameters of a statement can
be dealt out to its atoms again, and two filters of the same shape that become the same statement
agree in what each of their atoms says and binds.
-/

set_option autoImplicit false

namespace Quarry.Sql

open Grammar (Term Condition)

variable {d : Dialect}

/-! ## Parameters of fragments -/

/-- Nothing has no parameters. -/
@[simp] theorem params_nil : Fragment.params [] = [] := rfl

/-- Parameters of fragments one after the other. -/
@[simp] theorem params_append (f g : Fragment) :
    Fragment.params (f ++ g) = Fragment.params f ++ Fragment.params g := by
  simp [Fragment.params]

/-- A word has no parameter. -/
@[simp] theorem params_word (t : String) (f : Fragment) :
    Fragment.params (.word t :: f) = Fragment.params f := rfl

/-- A name has no parameter. -/
@[simp] theorem params_name (n : String) (f : Fragment) :
    Fragment.params (.name n :: f) = Fragment.params f := rfl

/-- A slot has its value as parameter. -/
@[simp] theorem params_slot (v : Value) (f : Fragment) :
    Fragment.params (.slot v :: f) = v :: Fragment.params f := rfl

/-- Parentheses have no parameters. -/
@[simp] theorem params_parenthesized (f : Fragment) :
    Fragment.params f.parenthesized = Fragment.params f := by
  simp [Fragment.parenthesized]

/-- A column has no parameters. -/
@[simp] theorem params_column (c : ColumnRef) : Fragment.params c.fragment = [] := by
  cases c <;> rfl

/-- A separator that is a word has no parameters. -/
theorem params_joined (separator : String) (fs : List Fragment) :
    Fragment.params (Fragment.joined separator fs) = fs.flatMap Fragment.params := by
  induction fs with
  | nil => rfl
  | cons f rest ih =>
    cases rest with
    | nil => simp [Fragment.joined]
    | cons g rest =>
      simp [Grammar.joined_cons_cons, ih]

/-- The parameters of slots are their values. -/
@[simp] theorem params_slots (vs : List Value) : Fragment.params (Fragment.slots vs) = vs := by
  rw [Fragment.slots, params_joined, List.flatMap_map]
  simp

/-! ## Placeholders of trees -/

namespace Grammar

mutual

/-- The number of placeholders in a term. -/
def Term.slots : Term → Nat
  | .column _ => 0
  | .inner _ _ => 0
  | .number _ => 0
  | .slot => 1
  | .call _ ts => Term.slotsOf ts
  | .distinct t => t.slots
  | .typed t _ => t.slots
  | .selection what source filter => what.slots + source.slots + filter.slots

/-- The number of placeholders in terms. -/
def Term.slotsOf : List Term → Nat
  | [] => 0
  | t :: ts => t.slots + Term.slotsOf ts

/-- The number of placeholders in a condition. -/
def Condition.slots : Condition → Nat
  | .compare left _ right => left.slots + right.slots
  | .isNull t => t.slots
  | .isNotNull t => t.slots
  | .oneOf t items => t.slots + Term.slotsOf items
  | .like t pattern => t.slots + pattern.slots
  | .holds _ ts => Term.slotsOf ts
  | .exists_ what source filter => what.slots + source.slots + filter.slots
  | .all parts => Condition.slotsOf parts
  | .any parts => Condition.slotsOf parts

/-- The number of placeholders in conditions. -/
def Condition.slotsOf : List Condition → Nat
  | [] => 0
  | c :: cs => c.slots + Condition.slotsOf cs

end

/-- As many slots as there are terms that are slots. -/
theorem slotsOf_replicate (n : Nat) : Term.slotsOf (List.replicate n .slot) = n := by
  induction n with
  | zero => rfl
  | succ n ih => rw [List.replicate_succ, Term.slotsOf, ih, Term.slots, Nat.add_comm]

/-- The slots of conditions add up. -/
theorem slotsOf_conditions (cs : List Condition) :
    Condition.slotsOf cs = (cs.map Condition.slots).sum := by
  induction cs with
  | nil => rfl
  | cons c cs ih => rw [Condition.slotsOf, ih, List.map_cons, List.sum_cons]

/-- A disjunction has the slots of its members. -/
theorem slots_anyOf (cs : List Condition) :
    (Condition.anyOf cs).slots = (cs.map Condition.slots).sum := by
  match cs with
  | [] => rfl
  | [c] => simp [Condition.anyOf]
  | c :: e :: rest => rw [Condition.anyOf, Condition.slots, slotsOf_conditions]; simp

end Grammar

/-- The condition of a JSON test has a slot for each parameter. -/
theorem JsonTest.slots_condition (c : ColumnRef) (t : JsonTest) :
    (t.condition d c).slots = (Fragment.params (t.fragment d c.fragment)).length := by
  cases t <;> cases d <;>
    simp [condition, containsCondition, overlapsCondition, pathCondition, callCondition, eachSource,
      eachFilter, fragment, Condition.slots, Term.slots, Term.slotsOf, Grammar.slotsOf_replicate]

/-- An atom has as many placeholders as parameters. -/
theorem Atom.slots_condition (a : Atom) :
    (a.condition d).slots = (Fragment.params (a.fragment d)).length := by
  cases a with
  | anyJson c ts =>
    have hparts : ts.map (Condition.slots ∘ JsonTest.condition d c) =
        ts.map fun t => (Fragment.params (t.fragment d c.fragment)).length :=
      List.map_congr_left fun t _ => t.slots_condition c
    rw [condition, Grammar.slots_anyOf, List.map_map, hparts, fragment, params_parenthesized,
      params_joined, List.flatMap_map, List.length_flatMap]
  | json c t => exact t.slots_condition c
  | _ =>
    simp [condition, fragment, Condition.never, Condition.slots, Term.slots,
      Grammar.slotsOf_replicate]

/-! ## Statements of filters -/

namespace Filter

/-- What an atom says, and the values it binds. -/
def view (d : Dialect) (a : Atom) : Condition × List Value :=
  (a.condition d, Fragment.params (a.fragment d))

/-- The atoms in the order of the text. -/
def atoms (f : Filter) : List Atom := f.main ++ f.groups.flatten

/-- The parameters of a conjunction are those of its atoms. -/
theorem params_conjunction (as : List Atom) :
    Fragment.params (conjunction d as) = as.flatMap fun a => Fragment.params (a.fragment d) := by
  rw [conjunction, params_joined, List.flatMap_map]

/-- The parameters of a disjunction are those of the atoms of its groups. -/
theorem params_disjunction (gs : List (List Atom)) :
    Fragment.params (disjunction d gs) =
      gs.flatten.flatMap fun a => Fragment.params (a.fragment d) := by
  rw [disjunction, params_joined, List.flatMap_map]
  simp only [params_parenthesized, params_conjunction]
  rw [← List.flatMap_id, List.flatMap_assoc]
  rfl

/-- The parameters of a filter are those of its atoms. -/
theorem params_fragment (f : Filter) :
    Fragment.params (f.fragment d) = f.atoms.flatMap fun a => Fragment.params (a.fragment d) := by
  obtain ⟨main, groups⟩ := f
  cases groups with
  | nil => simp [fragment, atoms, params_conjunction]
  | cons g groups =>
    cases main with
    | nil => simp [fragment, atoms, params_disjunction]
    | cons a main => simp [fragment, atoms, params_conjunction, params_disjunction]

/-- The shape of a filter: how many atoms there are in the main part and in each group. -/
def shape (f : Filter) : Nat × List Nat := (f.main.length, f.groups.map List.length)

end Filter

namespace Grammar

/-- Conjunctions of equally many conditions are equal if these are. -/
theorem allOf_injective {cs es : List Condition} (hlength : cs.length = es.length)
    (h : Condition.allOf cs = Condition.allOf es) : cs = es := by
  match cs, es with
  | [], [] => rfl
  | [c], [e] => exact congrArg (fun x => [x]) h
  | c :: c' :: cs, e :: e' :: es => exact Condition.all.inj h

/-- Disjunctions of equally many conditions are equal if these are. -/
theorem anyOf_injective {cs es : List Condition} (hlength : cs.length = es.length)
    (h : Condition.anyOf cs = Condition.anyOf es) : cs = es := by
  match cs, es with
  | [], [] => rfl
  | [c], [e] => exact congrArg (fun x => [x]) h
  | c :: c' :: cs, e :: e' :: es => exact Condition.any.inj h

/-- Conjunctions in equally large groups are equal if the groups are. -/
theorem groups_injective {gs hs : List (List Condition)}
    (hlength : gs.map List.length = hs.map List.length)
    (h : gs.map Condition.allOf = hs.map Condition.allOf) : gs = hs := by
  induction gs generalizing hs with
  | nil =>
    cases hs with
    | nil => rfl
    | cons k hs => simp at h
  | cons g gs ih =>
    cases hs with
    | nil => simp at h
    | cons k hs =>
      simp only [List.map_cons, List.cons.injEq] at hlength h
      rw [allOf_injective hlength.1 h.1, ih hlength.2 h.2]

/-- Trees of the same shape are made of the same conditions. -/
theorem ofSides_injective {main others : List Condition} {gs hs : List (List Condition)}
    (hmain : main.length = others.length) (hgroups : gs.map List.length = hs.map List.length)
    (h : Condition.ofSides main gs = Condition.ofSides others hs) : main = others ∧ gs = hs := by
  have hcount : gs.length = hs.length := by simpa using congrArg List.length hgroups
  have hgs : Condition.anyOf (gs.map Condition.allOf) = Condition.anyOf (hs.map Condition.allOf) →
      gs = hs := by
    intro hany
    exact groups_injective hgroups (anyOf_injective (by simpa using hcount) hany)
  match main, others, gs, hs with
  | [], [], [], [] => exact ⟨rfl, rfl⟩
  | [], [], g :: gs, k :: hs => exact ⟨rfl, hgs (Option.some.inj h)⟩
  | c :: main, e :: others, [], [] => exact ⟨allOf_injective hmain (Option.some.inj h), rfl⟩
  | c :: main, e :: others, g :: gs, k :: hs =>
    have hboth := Condition.all.inj (Option.some.inj h)
    simp only [List.cons.injEq, and_true] at hboth
    exact ⟨allOf_injective hmain hboth.1, hgs hboth.2⟩

end Grammar

/-- Lists that are put together from parts of the same lengths have the same parts. -/
theorem map_eq_of_flatMap_eq {α β : Type} {f : α → List β} {xs ys : List α}
    (hlength : xs.map (fun x => (f x).length) = ys.map fun y => (f y).length)
    (h : xs.flatMap f = ys.flatMap f) : xs.map f = ys.map f := by
  induction xs generalizing ys with
  | nil =>
    cases ys with
    | nil => rfl
    | cons y ys => simp at hlength
  | cons x xs ih =>
    cases ys with
    | nil => simp at hlength
    | cons y ys =>
      simp only [List.map_cons, List.cons.injEq] at hlength
      rw [List.flatMap_cons, List.flatMap_cons] at h
      obtain ⟨hfirst, hrest⟩ := List.append_inj h hlength.1
      rw [List.map_cons, List.map_cons, hfirst, ih hlength.2 hrest]

namespace Filter

/-- Filters of the same shape that become the same statement say and bind the same, atom by atom. -/
theorem views_of_statement {f g : Filter} (hf : f.IsProper) (hg : g.IsProper)
    (hshape : f.shape = g.shape) (h : (f.fragment d).statement d = (g.fragment d).statement d) :
    f.atoms.map (view d) = g.atoms.map (view d) := by
  have hsql : Fragment.sql d (f.fragment d) = Fragment.sql d (g.fragment d) :=
    congrArg Statement.sql h
  have hparams : Fragment.params (f.fragment d) = Fragment.params (g.fragment d) :=
    congrArg Statement.params h
  have htree : f.condition d = g.condition d := by
    have hread := read_sql (d := d) hf
    rw [hsql, read_sql hg] at hread
    exact (Option.some.inj hread).symm
  have hmain : f.main.length = g.main.length := congrArg Prod.fst hshape
  have hgroups : f.groups.map List.length = g.groups.map List.length := congrArg Prod.snd hshape
  obtain ⟨hmains, hgs⟩ := Grammar.ofSides_injective (by simpa using hmain)
    (by simpa [Function.comp_def] using hgroups) htree
  have hconditions : f.atoms.map (Atom.condition d) = g.atoms.map (Atom.condition d) := by
    rw [atoms, atoms, List.map_append, List.map_append, List.map_flatten, List.map_flatten, hmains,
      hgs]
  have hlengths : f.atoms.map (fun a => (Fragment.params (a.fragment d)).length) =
      g.atoms.map fun a => (Fragment.params (a.fragment d)).length := by
    have hslots := congrArg (List.map Condition.slots) hconditions
    rw [List.map_map, List.map_map] at hslots
    simpa only [Function.comp_def, Atom.slots_condition] using hslots
  rw [params_fragment, params_fragment] at hparams
  have hvalues := map_eq_of_flatMap_eq hlengths hparams
  have hzip : ∀ e : Filter, e.atoms.map (view d) =
      (e.atoms.map (Atom.condition d)).zip (e.atoms.map fun a => Fragment.params (a.fragment d)) := by
    intro e
    rw [List.zip_map']
    rfl
  rw [hzip, hzip, hconditions, hvalues]

end Filter

end Quarry.Sql
