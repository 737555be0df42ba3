import Mathlib.Data.Finset.Card
import Quarry.Proofs.Number.Equal
import Quarry.Proofs.Sql.ConditionTree
import Quarry.Proofs.Sql.Parameters

/-!
# Containment of arrays

What a condition on columns that hold arrays is true of is defined here on the tree that its text is
read back as: functions are applied, the elements of an array are gone through and counted, and
every placeholder stands for the parameter in its place. The two dialects say quite different things
to ask whether an array contains all values of one of several sub-arrays. They mean the same
(`compile_inJson_truth`): SQLite counts the elements that are among the bound values, and because
equal values are bound once, there are as many of them as the text says only if none is missing.
-/

set_option autoImplicit false

namespace Quarry.Sql

open Grammar (Term Condition)

variable {d : Dialect}

/-! ## What conditions on arrays mean -/

/-- A member of an array. -/
inductive JsonScalar where
  | int (n : Int)
  | text (s : String)
  deriving DecidableEq

namespace JsonScalar

/-- The value that is given for a member. -/
def value : JsonScalar → Value
  | .int n => .int n
  | .text s => .text s

/-- The member that a bound value is. -/
def ofValue? : Value → Option JsonScalar
  | .int n => some (.int n)
  | .text s => some (.text s)
  | _ => none

/-- A scalar is found again in its value. -/
@[simp] theorem ofValue?_value (x : JsonScalar) : ofValue? x.value = some x := by
  cases x <;> rfl

end JsonScalar

namespace Grammar

/-- The value of a term. -/
inductive Datum where
  | scalar (x : JsonScalar)
  | array (xs : List JsonScalar)
  deriving DecidableEq

namespace Datum

/-- The member that a value is, if it is no array. -/
def scalar? : Datum → Option JsonScalar
  | .scalar x => some x
  | .array _ => none

/-- What a function gives. The elements that `json_each` goes through are those of its array. -/
def call (function : String) (arguments : List Datum) : Option Datum :=
  match function, arguments with
  | "JSON_ARRAY", items => (items.mapM scalar?).map .array
  | "json_each", [.array xs] => some (.array xs)
  | _, _ => none

/-- Whether a function is true. -/
def holds (function : String) (arguments : List Datum) : Option Bool :=
  match function, arguments with
  | "JSON_CONTAINS", [.array xs, .array ys] => some (decide (∀ y ∈ ys, y ∈ xs))
  | _, _ => none

/-- Whether a comparison of two values is true. -/
def compare (c : Comparison) (x y : Datum) : Option Bool :=
  match c, x, y with
  | .equal, .scalar x, .scalar y => some (decide (x = y))
  | _, _, _ => none

/-- Whether a value is one of several. -/
def isOneOf (x : Datum) (items : List Datum) : Option Bool :=
  some (decide (x ∈ items))

end Datum

/-- What a condition is read against: the array that a column holds, and the element at hand while
the elements of an array are gone through. -/
structure Scope where
  columns : ColumnRef → List JsonScalar
  element : Option JsonScalar

/-- The scope in which an element is at hand. -/
def Scope.at (s : Scope) (x : JsonScalar) : Scope := { s with element := some x }

mutual

/-- The value of a term whose placeholders stand for the first parameters. -/
def Term.meaning (s : Scope) : Term → List Value → Option Datum
  | .column c, _ => some (.array (s.columns c))
  | .inner "json_each" "value", _ => s.element.map .scalar
  | .inner _ _, _ => none
  | .number digits, _ => some (.scalar (.int (Text.asciiNat digits.toList)))
  | .slot, params => (params.head?.bind JsonScalar.ofValue?).map .scalar
  | .call f ts, params => (Term.meanings s ts params).bind (Datum.call f)
  | .distinct _, _ => none
  | .typed _ _, _ => none
  | .selection what source filter, params => do
    let .array xs ← source.meaning s (params.drop what.slots) | none
    let rest := params.drop (what.slots + source.slots)
    what.aggregate s (xs.filter fun x => filter.truth (s.at x) rest == some true) params

/-- The values of terms. -/
def Term.meanings (s : Scope) : List Term → List Value → Option (List Datum)
  | [], _ => some []
  | t :: ts, params => do
    let x ← t.meaning s params
    return x :: (← Term.meanings s ts (params.drop t.slots))

/-- What a term that counts gives for the elements that were chosen. -/
def Term.aggregate (s : Scope) : Term → List JsonScalar → List Value → Option Datum
  | .call "COUNT" [.distinct t], xs, params => do
    let counted ← xs.mapM fun x => t.meaning (s.at x) params
    return .scalar (.int counted.toFinset.card)
  | _, _, _ => none

/-- Whether a condition is true, if that can be told. -/
def Condition.truth (s : Scope) : Condition → List Value → Option Bool
  | .compare left c right, params => do
    Datum.compare c (← left.meaning s params) (← right.meaning s (params.drop left.slots))
  | .oneOf t items, params => do
    Datum.isOneOf (← t.meaning s params) (← Term.meanings s items (params.drop t.slots))
  | .holds f ts, params => (Term.meanings s ts params).bind (Datum.holds f)
  | .all parts, params => (Condition.truths s parts params).map (List.all · id)
  | .any parts, params => (Condition.truths s parts params).map (List.any · id)
  | .isNull _, _ => none
  | .isNotNull _, _ => none
  | .like _ _, _ => none
  | .exists_ _ _ _, _ => none

/-- Whether conditions are true. -/
def Condition.truths (s : Scope) : List Condition → List Value → Option (List Bool)
  | [], _ => some []
  | c :: cs, params => do
    let b ← c.truth s params
    return b :: (← Condition.truths s cs (params.drop c.slots))

end

/-! ## Placeholders and counts -/

/-- Placeholders stand for the members that are bound to them. -/
theorem meanings_slots (s : Scope) (xs : List JsonScalar) (rest : List Value) :
    Term.meanings s (List.replicate xs.length .slot) (xs.map JsonScalar.value ++ rest) =
      some (xs.map .scalar) := by
  induction xs with
  | nil => simp [Term.meanings]
  | cons x xs ih => simp [Term.meanings, Term.meaning, Term.slots, List.replicate_succ, ih]

/-- Placeholders in an array. -/
theorem meaning_array (s : Scope) (xs : List JsonScalar) (rest : List Value) :
    (Term.call "JSON_ARRAY" (List.replicate xs.length .slot)).meaning s
      (xs.map JsonScalar.value ++ rest) = some (.array xs) := by
  have hmembers : (xs.map Datum.scalar).mapM Datum.scalar? = some (xs.map id) :=
    mapM_map_eq_some (f := Datum.scalar?) Datum.scalar id xs fun _ _ => rfl
  rw [Term.meaning, meanings_slots, Option.bind_some, Datum.call, hmembers, List.map_id]
  rfl

/-- Among distinct members, as many as there are lie in an array only if all of them do. -/
theorem card_kept_eq_iff {xs ys : List JsonScalar} (hys : ys.Nodup) :
    ((xs.filter (· ∈ ys)).map Datum.scalar).toFinset.card = ys.length ↔ ∀ y ∈ ys, y ∈ xs := by
  have hkept : ((xs.filter (· ∈ ys)).map Datum.scalar).toFinset =
      (ys.toFinset.filter (· ∈ xs)).image Datum.scalar := by
    ext x
    simp only [List.mem_toFinset, List.mem_map, List.mem_filter, Finset.mem_image, Finset.mem_filter,
      decide_eq_true_eq, and_comm (a := _ ∈ xs)]
  have hinjective : Function.Injective Datum.scalar := fun _ _ => Datum.scalar.inj
  rw [hkept, Finset.card_image_of_injective _ hinjective, ← List.toFinset_card_of_nodup hys,
    Finset.card_filter_eq_iff]
  simp only [List.mem_toFinset]

end Grammar

/-! ## Tests for one sub-array -/

namespace JsonTest

open Grammar (Scope Datum)

variable {g : List JsonScalar} {t : JsonTest}

/-- A containment test of the members of a sub-array. In SQLite no member is bound twice. -/
def Asks (d : Dialect) (g : List JsonScalar) (t : JsonTest) : Prop :=
  ∃ xs : List JsonScalar, t = .contains (xs.map JsonScalar.value) ∧ (∀ x, x ∈ xs ↔ x ∈ g) ∧
    (d = .sqlite → xs.Nodup)

/-- In MySQL containment holds exactly if every value is in the column. -/
theorem truth_mysql (s : Scope) (c : ColumnRef) (xs : List JsonScalar) (rest : List Value) :
    (containsCondition .mysql c xs.length).truth s (xs.map JsonScalar.value ++ rest) =
      some (decide (∀ x ∈ xs, x ∈ s.columns c)) := by
  have hcolumn : (Term.column c).meaning s (xs.map JsonScalar.value ++ rest) =
      some (.array (s.columns c)) := rfl
  have harray := Grammar.meaning_array s xs rest
  simp [containsCondition, callCondition, Condition.truth, Term.meanings, hcolumn, Term.slots, harray,
    Datum.holds]

/-- The elements that are counted are those among the bound members. -/
theorem truth_sqlite (s : Scope) (c : ColumnRef) {xs : List JsonScalar} (hxs : xs.Nodup)
    (rest : List Value) :
    (containsCondition .sqlite c xs.length).truth s (xs.map JsonScalar.value ++ rest) =
      some (decide (∀ x ∈ xs, x ∈ s.columns c)) := by
  let params := xs.map JsonScalar.value ++ rest
  let value : Term := .inner "json_each" "value"
  have hvalue (x : JsonScalar) : value.meaning (s.at x) params = some (.scalar x) := rfl
  have hchosen (x : JsonScalar) :
      (eachFilter xs.length).truth (s.at x) params = some (decide (x ∈ xs)) := by
    have hslots := Grammar.meanings_slots (s.at x) xs rest
    have hmem : Datum.scalar x ∈ xs.map Datum.scalar ↔ x ∈ xs := by simp
    rw [eachFilter, Condition.truth, hvalue, Term.slots, List.drop_zero, hslots]
    simp [Datum.isOneOf]
  have hkept : (fun x => (eachFilter xs.length).truth (s.at x) params == some true) =
      fun x => decide (x ∈ xs) := by
    funext x
    rw [hchosen]
    cases decide (x ∈ xs) <;> rfl
  have hsource : (eachSource c).meaning s params = some (.array (s.columns c)) := rfl
  let kept := (s.columns c).filter (· ∈ xs)
  have hcounted : kept.mapM (fun x => value.meaning (s.at x) params) = some (kept.map .scalar) := by
    have hmap := Grammar.mapM_map_eq_some (f := fun x => value.meaning (s.at x) params) id Datum.scalar kept
      fun x _ => hvalue x
    rwa [List.map_id] at hmap
  have hcount : (Term.call "COUNT" [.distinct value]).aggregate s kept params =
      some (.scalar (.int (kept.map Datum.scalar).toFinset.card)) := by
    rw [Term.aggregate, hcounted]
    rfl
  have hleft : (Term.selection (.call "COUNT" [.distinct value]) (eachSource c)
      (eachFilter xs.length)).meaning s params =
        some (.scalar (.int (kept.map Datum.scalar).toFinset.card)) := by
    have hwhat : (Term.call "COUNT" [.distinct value]).slots = 0 := rfl
    have hfrom : (eachSource c).slots = 0 := rfl
    rw [Term.meaning]
    simp only [hwhat, hfrom, Nat.add_zero, List.drop_zero, hsource, hkept]
    exact hcount
  have hright : Text.asciiNat (toString xs.length).toList = xs.length := by
    simpa using Number.asciiNat_toDigits xs.length
  have hnumbers : JsonScalar.int (kept.map Datum.scalar).toFinset.card = .int xs.length ↔
      ∀ x ∈ xs, x ∈ s.columns c := by
    rw [JsonScalar.int.injEq, Int.ofNat_inj]
    exact Grammar.card_kept_eq_iff hxs
  rw [containsCondition, Condition.truth, hleft, Term.meaning, hright]
  simp only [Option.bind_eq_bind, Option.bind_some, Datum.compare, hnumbers]

/-- A test is true of a column whose array contains the whole sub-array, in either dialect. -/
theorem Asks.truth (h : t.Asks d g) (s : Scope) (c : ColumnRef) (rest : List Value) :
    (t.condition d c).truth s (Fragment.params (t.fragment d c.fragment) ++ rest) =
      some (decide (∀ x ∈ g, x ∈ s.columns c)) := by
  obtain ⟨xs, rfl, hmem, hnodup⟩ := h
  have hparams : Fragment.params ((JsonTest.contains (xs.map JsonScalar.value)).fragment d c.fragment) =
      xs.map JsonScalar.value := by
    cases d <;> simp [fragment]
  have hall : (∀ x ∈ g, x ∈ s.columns c) ↔ ∀ x ∈ xs, x ∈ s.columns c := by simp only [hmem]
  rw [hparams, condition, List.length_map]
  simp only [hall]
  cases d with
  | mysql => exact truth_mysql s c xs rest
  | sqlite => exact truth_sqlite s c (hnodup rfl) rest

end JsonTest

/-! ## Tests for one of several sub-arrays -/

open Grammar (Scope)

/-- Each test for containment holds exactly if every value of its group is in the column. -/
theorem truths_tests (s : Scope) (c : ColumnRef) {groups : List (List JsonScalar)}
    {ts : List JsonTest} (h : List.Forall₂ (JsonTest.Asks d) groups ts) :
    Condition.truths s (ts.map (JsonTest.condition d c))
        (ts.flatMap fun t => Fragment.params (t.fragment d c.fragment)) =
      some (groups.map fun g => decide (∀ x ∈ g, x ∈ s.columns c)) := by
  induction h with
  | nil => simp [Condition.truths]
  | @cons g t groups ts hfirst _ ih =>
    have hdrop (rest : List Value) :
        (Fragment.params (t.fragment d c.fragment) ++ rest).drop (t.condition d c).slots = rest := by
      rw [JsonTest.slots_condition, List.drop_left]
    rw [List.map_cons, List.flatMap_cons, Condition.truths, hfirst.truth s c, hdrop, ih]
    rfl

/-- The atom of tests is true of a column whose array contains one of the sub-arrays. -/
theorem truth_ofTests (s : Scope) (c : ColumnRef) {groups : List (List JsonScalar)}
    {ts : List JsonTest} (h : List.Forall₂ (JsonTest.Asks d) groups ts) (hne : groups ≠ []) :
    ((Atom.ofTests c ts).condition d).truth s (Fragment.params ((Atom.ofTests c ts).fragment d)) =
      some (decide (∃ g ∈ groups, ∀ x ∈ g, x ∈ s.columns c)) := by
  cases h with
  | nil => exact absurd rfl hne
  | @cons g t groups ts hfirst hrest =>
    cases hrest with
    | nil =>
      have htruth := hfirst.truth s c []
      rw [List.append_nil] at htruth
      simp only [List.mem_singleton, exists_eq_left]
      exact htruth
    | @cons g' t' groups ts hsecond hrest =>
      have htruths := truths_tests s c (.cons hfirst (.cons hsecond hrest))
      have hparams : Fragment.params ((Atom.ofTests c (t :: t' :: ts)).fragment d) =
          (t :: t' :: ts).flatMap fun t => Fragment.params (t.fragment d c.fragment) := by
        show Fragment.params (Fragment.parenthesized _) = _
        rw [params_parenthesized, params_joined, List.flatMap_map]
      have hany : (Atom.ofTests c (t :: t' :: ts)).condition d =
          .any ((t :: t' :: ts).map (JsonTest.condition d c)) := rfl
      rw [hparams, hany, Condition.truth, htruths, Option.map_some, List.any_map, List.any_eq]
      simp only [Function.comp_apply, id_eq, decide_eq_true_eq]

/-! ## What is compiled -/

namespace JsonScalar

/-- Values of scalars are the same exactly if these are equal. -/
theorem same_value (x y : JsonScalar) : Value.same x.value y.value = decide (x = y) := by
  cases x with
  | text s => cases y <;> simp [value, Value.same, Value.same?, Bool.beq_eq_decide_eq]
  | int n =>
    cases y with
    | text t => simp [value, Value.same, Value.same?, Value.sameNumber?, Value.numeric?]
    | int m =>
      have hsame : Value.same (.int n) (.int m) = (Number.Exact.ofInt n).equal (.ofInt m) := by
        simp [Value.same, Value.same?, Value.sameNumber?, Value.numeric?, Value.isSignaling]
      rw [value, value, hsame, Bool.eq_iff_iff, Number.Exact.equal_ofInt_iff]
      simp

/-- What is left of a sub-array after repetitions were dropped. -/
theorem distinctFrom_values (seen g : List JsonScalar) : ∃ xs : List JsonScalar,
    Value.distinctFrom (seen.map value) (g.map value) = xs.map value ∧ xs.Nodup ∧
      ∀ x, x ∈ xs ↔ x ∈ g ∧ x ∉ seen := by
  induction g generalizing seen with
  | nil => exact ⟨[], rfl, List.nodup_nil, by simp⟩
  | cons y g ih =>
    have hseen : ((seen.map value).any fun w => Value.same w y.value) = decide (y ∈ seen) := by
      simp [List.any_eq, same_value]
    rw [List.map_cons, Value.distinctFrom, hseen]
    by_cases hy : y ∈ seen
    · obtain ⟨xs, hxs, hnodup, hmem⟩ := ih seen
      refine ⟨xs, by simpa [hy] using hxs, hnodup, fun x => ?_⟩
      rw [hmem, List.mem_cons]
      constructor
      · exact fun h => ⟨.inr h.1, h.2⟩
      · rintro ⟨rfl | h, hx⟩
        · exact absurd hy hx
        · exact ⟨h, hx⟩
    · obtain ⟨xs, hxs, hnodup, hmem⟩ := ih (seen ++ [y])
      have hfresh : y ∉ xs := by simp [hmem]
      refine ⟨y :: xs, by simpa [hy] using hxs, List.nodup_cons.mpr ⟨hfresh, hnodup⟩, fun x => ?_⟩
      by_cases hx : x = y
      · simp [hx, hy]
      · simp [hmem, hx]

/-- The parameters of scalars are their values. -/
theorem parameters_values (utc : Bool) (g : List JsonScalar) :
    Value.parameters utc (g.map value) = .ok (g.map value) := by
  have hgiven : ((g.map value).filter fun v => !v.isUnset) = g.map value := by
    rw [List.filter_eq_self]
    intro v hv
    obtain ⟨x, -, rfl⟩ := List.mem_map.mp hv
    cases x <;> rfl
  rw [Value.parameters, hgiven, mapM_eq_ok_iff]
  refine List.forall₂_same.mpr fun v hv => ?_
  obtain ⟨x, -, rfl⟩ := List.mem_map.mp hv
  cases x <;> rfl

/-- The values of scalars are fixed. -/
theorem areFixed_values (g : List JsonScalar) : Value.areFixed (g.map value) = true := by
  induction g with
  | nil => rfl
  | cons x g ih => cases x <;> simpa [Value.areFixed, value, Value.isFixed] using ih

end JsonScalar

/-- Whether an entry with these fields asks for one of several sub-arrays: its operator is IN_JSON
in any case of letters, and its operand an array of them. -/
def AsksForOneOf (fields : Record) (groups : List (List JsonScalar)) : Prop :=
  (∃ operator, Record.get? "operator" fields = some operator ∧
    Operator.ofValue operator = .ok .inJson) ∧
  ∃ operand arrays, Record.get? "value" fields = some operand ∧ sequence? operand = some arrays ∧
    List.Forall₂ (fun array g => sequence? array = some (g.map JsonScalar.value)) arrays groups

/-- For every group there is a test for its containment. -/
theorem exists_containing (d : Dialect) (g : List JsonScalar) :
    ∃ t, JsonTest.containing d (g.map JsonScalar.value) = .ok t ∧ t.Asks d g := by
  cases d with
  | mysql => exact ⟨.contains (g.map JsonScalar.value), rfl, g, rfl, fun _ => Iff.rfl, nofun⟩
  | sqlite =>
    obtain ⟨xs, hxs, hnodup, hmem⟩ := JsonScalar.distinctFrom_values [] g
    rw [List.map_nil] at hxs
    refine ⟨.contains (xs.map JsonScalar.value), ?_, xs, rfl, by simpa using hmem, fun _ => hnodup⟩
    simp [JsonTest.containing, Value.dedupe?, JsonScalar.areFixed_values, hxs]

/-- For all groups there are tests for their containment. -/
theorem exists_containmentTests (d : Dialect) (utc : Bool) {groups : List (List JsonScalar)}
    (hgroups : ∀ g ∈ groups, g ≠ []) :
    ∃ ts, containmentTests d utc (groups.map (List.map JsonScalar.value)) = .ok ts ∧
      List.Forall₂ (JsonTest.Asks d) groups ts := by
  induction groups with
  | nil => exact ⟨[], rfl, .nil⟩
  | cons g groups ih =>
    obtain ⟨hg, hgroups⟩ := List.forall_mem_cons.mp hgroups
    obtain ⟨ts, hts, hlater⟩ := ih hgroups
    obtain ⟨t, ht, hfirst⟩ := exists_containing d g
    refine ⟨t :: ts, ?_, .cons hfirst hlater⟩
    simp [containmentTests, JsonScalar.parameters_values, hg, ht, hts]

/-- A key under an owner, or under none, denotes a column. -/
theorem within_ofOption (owner : Option String) (key : String) :
    (ColumnRef.ofKey key).within (Value.ofOption .text owner) =
      .ok (ColumnRef.denoted (Value.ofOption .text owner) key) := by
  have hcolumn : ∃ c, (ColumnRef.ofKey key).within (Value.ofOption .text owner) = .ok c := by
    cases ColumnRef.ofKey key with
    | plain column =>
      cases owner with
      | none => exact ⟨.plain column, rfl⟩
      | some table =>
        rw [ColumnRef.within]
        split
        · exact ⟨.qualified table column, rfl⟩
        · exact ⟨.plain column, rfl⟩
    | qualified table column => exact ⟨.qualified table column, rfl⟩
    | star table => exact ⟨.star table, rfl⟩
  obtain ⟨c, hc⟩ := hcolumn
  rw [hc, ColumnRef.within_eq_ok hc]

/-- An entry that asks for one of several sub-arrays becomes the atom of their tests. -/
theorem exists_entryAtom (d : Dialect) (owner : Option String) (utc : Bool) (key : String)
    {fields : Record} {groups : List (List JsonScalar)} (h : AsksForOneOf fields groups)
    (hne : groups ≠ []) (hgroups : ∀ g ∈ groups, g ≠ []) :
    ∃ ts, entryAtom d (Value.ofOption .text owner) utc key (.record fields) =
        .ok (some (Atom.ofTests (ColumnRef.denoted (Value.ofOption .text owner) key) ts)) ∧
      List.Forall₂ (JsonTest.Asks d) groups ts := by
  obtain ⟨⟨operator, hoperator, hinJson⟩, operand, arrays, hoperand, harrays, hmembers⟩ := h
  obtain ⟨ts, hts, hasks⟩ := exists_containmentTests d utc hgroups
  refine ⟨ts, ?_, hasks⟩
  let c := ColumnRef.denoted (Value.ofOption .text owner) key
  have hcolumn : (ColumnRef.ofKey key).within (Value.ofOption .text owner) = .ok c :=
    within_ofOption owner key
  have hatom : inJsonAtom d utc c operand = .ok (Atom.ofTests c ts) := by
    have hspread : arrays.filterMap sequence? = groups.map (List.map JsonScalar.value) := by
      clear harrays hne hgroups hts hasks
      induction hmembers with
      | nil => rfl
      | cons hfirst _ ih => rw [List.filterMap_cons_some hfirst, ih, List.map_cons]
    have hall : arrays ≠ [] ∧ ∀ v ∈ arrays, (sequence? v).isSome := by
      refine ⟨?_, fun v hv => ?_⟩
      · rintro rfl
        cases hmembers
        exact hne rfl
      · obtain ⟨g, -, hg⟩ := exists_of_forall₂ hmembers v hv
        rw [hg, Option.isSome_some]
    rw [inJsonAtom_elements, harrays, Option.getD_some, inJsonAtom_arrays hall, hspread, hts]
    rfl
  have hgiven : Record.getD "value" fields = operand := by simp [Record.getD, hoperand]
  have hentry : operatorAtom d utc c operator fields = .ok (some (Atom.ofTests c ts)) := by
    rw [operatorAtom, hinJson, hgiven]
    cases operand with
    | list vs => simp [hatom]
    | tuple vs => simp [hatom]
    | _ => exact nomatch harrays
  simp [entryAtom, Value.isUnset, hcolumn, hoperator, hentry, c]

/-- Asking whether an array contains all values of one of several sub-arrays. The text is read back
as a condition that is true, with the values that are bound, exactly of the rows in which the array
of the column contains every value of one of the sub-arrays. It does not matter how often a value is
given, and the dialect does not either. -/
theorem compile_inJson_truth (d : Dialect) (owner : Option String) (utc : Bool) (key : String)
    (fields : Record) (groups : List (List JsonScalar)) (h : AsksForOneOf fields groups)
    (hne : groups ≠ []) (hgroups : ∀ g ∈ groups, g ≠ [])
    (columns : ColumnRef → List JsonScalar) :
    ∃ f c, Filter.compile d (Value.ofOption .text owner) utc (.record [(key, .record fields)]) [] =
        .ok f ∧
      Grammar.read d ((f.fragment d).statement d).sql = some (some c) ∧
      c.truth ⟨columns, none⟩ ((f.fragment d).statement d).params = some (decide
        (∃ g ∈ groups, ∀ x ∈ g, x ∈ columns (ColumnRef.denoted (Value.ofOption .text owner) key))) := by
  obtain ⟨ts, hatom, hasks⟩ := exists_entryAtom d owner utc key h hne hgroups
  let a := Atom.ofTests (ColumnRef.denoted (Value.ofOption .text owner) key) ts
  have hcompile : Filter.compile d (Value.ofOption .text owner) utc
      (.record [(key, .record fields)]) [] = .ok ⟨[a], []⟩ := by
    simp [Filter.compile, Filter.conditionOf, Value.isTrue, entryAtoms, hatom, Filter.compileGroups, a]
  have hproper := (compile_means hcompile).1
  refine ⟨⟨[a], []⟩, a.condition d, hcompile, Filter.read_sql hproper, ?_⟩
  have hparams : Fragment.params ((Filter.mk [a] []).fragment d) = Fragment.params (a.fragment d) := by
    rw [Filter.params_fragment]
    simp [Filter.atoms]
  show (a.condition d).truth _ (Fragment.params _) = _
  rw [hparams]
  exact truth_ofTests ⟨columns, none⟩ _ hasks hne

/-- A sub-array with a repeated text, and one with a number. -/
theorem compile_inJson_truth_repeated :
    let groups : List (List JsonScalar) := [[.text "a", .text "b", .text "a"], [.int 1]]
    let fields : Record := [("operator", .text "in_json"),
      ("value", .list [.list [.text "a", .text "b", .text "a"], .tuple [.int 1]])]
    let columns : ColumnRef → List JsonScalar := fun _ => [.text "b", .int 2, .text "a"]
    AsksForOneOf fields groups ∧ groups ≠ [] ∧ (∀ g ∈ groups, g ≠ []) ∧
      ∃ f c, Filter.compile .sqlite (Value.ofOption .text (some "t")) true
          (.record [("tags", .record fields)]) [] = .ok f ∧
        Grammar.read .sqlite ((f.fragment .sqlite).statement .sqlite).sql = some (some c) ∧
        c.truth ⟨columns, none⟩ ((f.fragment .sqlite).statement .sqlite).params = some true := by
  intro groups fields columns
  have hasks : AsksForOneOf fields groups :=
    ⟨⟨_, rfl, rfl⟩, _, _, rfl, rfl, .cons rfl (.cons rfl .nil)⟩
  have hgroups : ∀ g ∈ groups, g ≠ [] := by decide
  obtain ⟨f, c, hcompile, hread, htruth⟩ := compile_inJson_truth .sqlite (some "t") true "tags" fields
    groups hasks (by decide) hgroups columns
  exact ⟨hasks, by decide, hgroups, f, c, hcompile, hread, htruth⟩

end Quarry.Sql
