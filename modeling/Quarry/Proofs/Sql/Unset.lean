import Quarry.Proofs.Sql.ConditionTree
import Quarry.Proofs.Sql.Parameters
import Quarry.Proofs.Value.Record

/-!
# Values that were not given

Leaving a value out of a condition should be the same as giving none for it. `erase` leaves out all
of them: entries, operands, elements of lists and of the arrays in them, and paths of LIKE.
Compiling a condition without them gives the same statement, unless an operand is `Torn` by a value
that was not given: an array among the operands of IN or of an overlap test is taken as it is, with
the values in it that were not given, and a list of arrays with such a value beside them is tested
for overlap, while the arrays alone would be tested for containment. The statements differ in just
these cases.
-/

set_option autoImplicit false

namespace Quarry.Sql

open Grammar (Condition)

variable {d : Dialect} {utc : Bool} {c : ColumnRef}

/-! ## Leaving values out -/

/-- An array without its elements that were not given. -/
def pruned : Value → Value
  | .list vs => .list (given vs)
  | .tuple vs => .tuple (given vs)
  | v => v

/-- The elements of a list that were given, and of the arrays among them also only those. -/
def prunedItems (vs : List Value) : List Value := (given vs).map pruned

/-- An operand without the values in it that were not given. Only lists and paths hold several. -/
def prunedOperand (op : Operator) (operand : Value) : Value :=
  match op, operand with
  | .oneOf, .list vs => .list (prunedItems vs)
  | .oneOf, .tuple vs => .tuple (prunedItems vs)
  | .oneOf, .set vs => .set (prunedItems vs)
  | .inJson, .list vs => .list (prunedItems vs)
  | .inJson, .tuple vs => .tuple (prunedItems vs)
  | .like, .record fields => .record (fields.filter fun f => !f.2.isUnset)
  | _, v => v

/-- The operator of a record that says a condition in full. -/
def operatorOf? (fields : Record) : Option Operator :=
  (Record.get? "operator" fields).bind fun v =>
    Operator.ofName? (String.ofList (Text.upper v.display.toList))

/-- The fields of a record that says a condition in full, with such an operand. -/
def prunedFields (fields : Record) : Record :=
  match operatorOf? fields with
  | some op => Record.set "value" (prunedOperand op (Record.getD "value" fields)) fields
  | none => fields

/-- An entry without the values in it that were not given, none if it is such a value itself. -/
def eraseField (entry : String × Value) : Option (String × Value) :=
  match entry.2 with
  | .unset => none
  | .list vs => some (entry.1, .list (prunedItems vs))
  | .tuple vs => some (entry.1, .tuple (prunedItems vs))
  | .record fields =>
    if Record.has "operator" fields && (Record.getD "value" fields).isUnset then none
    else some (entry.1, .record (prunedFields fields))
  | _ => some entry

/-- A condition without the values that were not given. -/
def erase : Value → Value
  | .record fields => .record (fields.filterMap eraseField)
  | v => v

/-! ## Torn operands -/

/-- An array with an element that was not given. -/
def HasGap (v : Value) : Prop := ∃ vs, sequence? v = some vs ∧ .unset ∈ vs

/-- Operands of IN with an array that has a gap. -/
def TornItems (vs : List Value) : Prop := ∃ v ∈ vs, HasGap v

/-- Operands of an overlap test with an array that has a gap, or with arrays that are not empty and
nothing else that was given. -/
def TornElements (vs : List Value) : Prop :=
  (∃ v ∈ vs, sequence? v = none) ∧
    ((∃ v ∈ vs, HasGap v) ∨
      ((∀ v ∈ given vs, (sequence? v).isSome) ∧ ∃ v ∈ vs, ∃ x xs, sequence? v = some (x :: xs)))

/-- An operand that changes its meaning with the values in it that were not given. -/
def TornOperand (op : Operator) (operand : Value) : Prop :=
  match op with
  | .oneOf => TornItems (operandItems operand)
  | .inJson => TornElements ((sequence? operand).getD [operand])
  | _ => False

/-- An entry with such an operand. -/
def Torn (entry : String × Value) : Prop :=
  match entry.2 with
  | .list vs => TornItems vs
  | .tuple vs => TornItems vs
  | .record fields => ∃ op, operatorOf? fields = some op ∧ TornOperand op (Record.getD "value" fields)
  | _ => False

/-! ## Lists of values -/

/-- Given are all values but absent ones. -/
theorem mem_given {v : Value} {vs : List Value} : v ∈ given vs ↔ v ∈ vs ∧ v ≠ .unset := by
  rw [given, List.mem_filter]
  cases v <;> simp [Value.isUnset]

/-- Where none is absent, all are given. -/
theorem given_eq_self {vs : List Value} (h : .unset ∉ vs) : given vs = vs := by
  rw [given, List.filter_eq_self]
  intro v hv
  cases v with
  | unset => exact absurd hv h
  | _ => rfl

/-- Where all are given, none is absent. -/
theorem unset_notMem_of_given_eq {vs : List Value} (h : given vs = vs) : .unset ∉ vs := by
  intro hmem
  rw [← h] at hmem
  exact (mem_given.mp hmem).2 rfl

/-- An array without gaps stays as it is, and so does any other value. -/
theorem pruned_eq_self {v : Value} (h : ¬ HasGap v) : pruned v = v := by
  cases v with
  | list vs => rw [pruned, given_eq_self fun hmem => h ⟨vs, rfl, hmem⟩]
  | tuple vs => rw [pruned, given_eq_self fun hmem => h ⟨vs, rfl, hmem⟩]
  | _ => rfl

/-- A value is absent after pruning if it was before. -/
theorem pruned_isUnset (v : Value) : (pruned v).isUnset = v.isUnset := by
  cases v <;> rfl

/-- Pruned items are all given. -/
@[simp] theorem given_prunedItems (vs : List Value) : given (prunedItems vs) = prunedItems vs := by
  refine given_eq_self ?_
  intro hmem
  obtain ⟨v, hv, hpruned⟩ := List.mem_map.mp hmem
  have hunset : v.isUnset = true := by rw [← pruned_isUnset, hpruned]; rfl
  cases v with
  | unset => exact (mem_given.mp hv).2 rfl
  | _ => simp [Value.isUnset] at hunset

/-- Unless there is a gap inside an item, to prune items is to leave out the absent ones. -/
theorem prunedItems_eq {vs : List Value} (h : ¬ TornItems vs) : prunedItems vs = given vs := by
  have hself : ∀ v ∈ given vs, pruned v = v := fun v hv =>
    pruned_eq_self fun hgap => h ⟨v, (mem_given.mp hv).1, hgap⟩
  rw [prunedItems, List.map_congr_left hself, List.map_id']

/-- Absent values have no parameters. -/
theorem parameters_given (vs : List Value) :
    Value.parameters utc (given vs) = Value.parameters utc vs := by
  simp [Value.parameters, given]

/-! ## Lists of operands -/

/-- A list with a gap in it has no JSON text. -/
theorem itemsToJson_error {vs : List Value} (room : Nat) (h : .unset ∈ vs) (js : List (Json String)) :
    Value.itemsToJson room vs ≠ .ok js := by
  induction vs generalizing js with
  | nil => simp at h
  | cons v vs ih =>
    intro hok
    rw [Value.itemsToJson] at hok
    cases hv : Value.toJson room v with
    | error e => simp [hv] at hok
    | ok j =>
      have hne : v ≠ .unset := by
        rintro rfl
        simp [Value.toJson] at hv
      have hmem : .unset ∈ vs := by simpa [Ne.symm hne] using h
      cases hrest : Value.itemsToJson room vs with
      | error e => simp [hv, hrest] at hok
      | ok rest => exact ih hmem rest hrest

/-- An array with a gap can only be bound as a tuple, which is bound as it is. -/
theorem parameter_of_gap {v p : Value} (hgap : HasGap v) (h : Value.parameter utc v = .ok p) :
    ∃ vs, v = .tuple vs ∧ p = .tuple vs ∧ .unset ∈ vs := by
  obtain ⟨vs, hvs, hmem⟩ := hgap
  cases v with
  | list items =>
    obtain rfl : items = vs := by simpa [sequence?] using hvs
    obtain ⟨text, htext, -⟩ := map_eq_ok.mp h
    obtain ⟨json, hjson, -⟩ := map_eq_ok.mp htext
    rw [Value.toJson] at hjson
    obtain ⟨js, hjs, -⟩ := map_eq_ok.mp hjson
    exact absurd hjs (itemsToJson_error _ hmem js)
  | tuple items =>
    obtain rfl : items = vs := by simpa [sequence?] using hvs
    exact ⟨items, rfl, (Except.ok.inj h).symm, hmem⟩
  | _ => simp [sequence?] at hvs

/-- A value with a gap inside is bound otherwise than the pruned one. -/
theorem parameter_pruned_ne {v p : Value} (hgap : HasGap v) (h : Value.parameter utc v = .ok p) :
    Value.parameter utc (pruned v) ≠ .ok p := by
  obtain ⟨vs, rfl, rfl, hmem⟩ := parameter_of_gap hgap h
  intro hsame
  have hgiven : given vs = vs := Value.tuple.inj (Except.ok.inj hsame)
  exact unset_notMem_of_given_eq hgiven hmem

/-- Absent items make no difference to an atom for one of them. -/
theorem oneOfAtom_pruned {vs : List Value} (h : ¬ TornItems vs) :
    oneOfAtom utc c (prunedItems vs) = oneOfAtom utc c vs := by
  rw [prunedItems_eq h, oneOfAtom, oneOfAtom, parameters_given]

/-- Traversals with the same results agree on every member. -/
theorem eq_of_mapM_eq {α β : Type} {f g : α → Except Error β} {xs : List α} {ys : List β}
    (hf : xs.mapM f = .ok ys) (hg : xs.mapM g = .ok ys) :
    ∀ x ∈ xs, ∃ y, f x = .ok y ∧ g x = .ok y := by
  induction xs generalizing ys with
  | nil => simp
  | cons x xs ih =>
    have hf' := mapM_eq_ok_iff.mp hf
    have hg' := mapM_eq_ok_iff.mp hg
    cases hf' with
    | cons hfx hfrest =>
      cases hg' with
      | cons hgx hgrest =>
        have hrest := ih (mapM_eq_ok_iff.mpr hfrest) (mapM_eq_ok_iff.mpr hgrest)
        exact List.forall_mem_cons.mpr ⟨⟨_, hfx, hgx⟩, hrest⟩

/-- Torn operands of IN are bound differently. -/
theorem oneOfAtom_torn {vs : List Value} {a b : Atom} (htorn : TornItems vs)
    (ha : oneOfAtom utc c vs = .ok a) (hb : oneOfAtom utc c (prunedItems vs) = .ok b) :
    Filter.view d a ≠ Filter.view d b := by
  have hparams : ∀ {us : List Value} {x : Atom}, oneOfAtom utc c us = .ok x →
      Value.parameters utc us = .ok (Fragment.params (x.fragment d)) := by
    intro us x hx
    obtain ⟨params, hparams, hatom⟩ := bind_eq_ok.mp hx
    rw [hparams]
    cases params with
    | nil =>
      obtain rfl : Atom.never = x := by simpa using hatom
      rfl
    | cons p params =>
      obtain rfl : Atom.oneOf c (p :: params) = x := by simpa using hatom
      simp [Atom.fragment]
  intro hview
  have hbound : Fragment.params (a.fragment d) = Fragment.params (b.fragment d) :=
    congrArg Prod.snd hview
  have hplain := hparams ha
  have hpruned := hparams hb
  rw [← hbound, Value.parameters] at hpruned
  change (given (prunedItems vs)).mapM _ = _ at hpruned
  rw [given_prunedItems, prunedItems, List.mapM_map] at hpruned
  obtain ⟨v, hv, hgap⟩ := htorn
  have hmem : v ∈ given vs := by
    refine mem_given.mpr ⟨hv, ?_⟩
    rintro rfl
    obtain ⟨us, hus, -⟩ := hgap
    simp [sequence?] at hus
  obtain ⟨p, hp, hsame⟩ := eq_of_mapM_eq hplain hpruned v hmem
  exact parameter_pruned_ne hgap hp hsame

/-! ## Elements of overlap tests -/

/-- Pruning leaves the given items of a sequence. -/
theorem sequence_pruned (v : Value) : sequence? (pruned v) = (sequence? v).map given := by
  cases v <;> rfl

/-- A sequence is not absent. -/
theorem isUnset_of_sequence {v : Value} (h : (sequence? v).isSome) : v ≠ .unset := by
  rintro rfl
  simp [sequence?] at h

/-- Values that were not given are passed over beside arrays. -/
theorem spread_given (vs : List Value) : spread (given vs) = spread vs := by
  induction vs with
  | nil => rfl
  | cons v vs ih => cases v <;> simp_all [given, spread, sequence?, Value.isUnset]

/-- Pruning and spreading can change places. -/
theorem spread_prunedItems (vs : List Value) : spread (prunedItems vs) = given (spread vs) := by
  induction vs with
  | nil => rfl
  | cons v vs ih =>
    cases v <;> simp_all [prunedItems, pruned, given, spread, sequence?, Value.isUnset]

/-- What a containment test asks for does not depend on values that were not given. -/
theorem containmentTests_given (arrays : List (List Value)) :
    containmentTests d utc (arrays.map given) = containmentTests d utc arrays := by
  induction arrays with
  | nil => rfl
  | cons vs rest ih => rw [List.map_cons, containmentTests, containmentTests, parameters_given, ih]

/-- Empty arrays need no test. -/
theorem containmentTests_empty {arrays : List (List Value)} (h : ∀ vs ∈ arrays, vs = []) :
    containmentTests d utc arrays = .ok [] := by
  induction arrays with
  | nil => rfl
  | cons vs rest ih =>
    obtain ⟨rfl, hrest⟩ := List.forall_mem_cons.mp h
    rw [containmentTests]
    exact ih hrest

/-- A list of arrays only is tested for containment with and without the values not given. -/
theorem inJsonAtom_pruned_arrays {vs : List Value} (h : vs ≠ [] ∧ ∀ v ∈ vs, (sequence? v).isSome) :
    inJsonAtom d utc c (.list (prunedItems vs)) = inJsonAtom d utc c (.list vs) := by
  have hgiven : given vs = vs :=
    given_eq_self fun hmem => isUnset_of_sequence (h.2 .unset hmem) rfl
  have hpruned : prunedItems vs ≠ [] ∧ ∀ v ∈ prunedItems vs, (sequence? v).isSome := by
    rw [prunedItems, hgiven]
    refine ⟨by simpa using h.1, ?_⟩
    intro v hv
    obtain ⟨u, hu, rfl⟩ := List.mem_map.mp hv
    simpa [sequence_pruned] using h.2 u hu
  have harrays : (prunedItems vs).filterMap sequence? = (vs.filterMap sequence?).map given := by
    rw [prunedItems, hgiven, List.filterMap_map, List.map_filterMap]
    exact congrArg (fun f => vs.filterMap f) (funext sequence_pruned)
  rw [inJsonAtom_arrays hpruned, inJsonAtom_arrays h, harrays, containmentTests_given]

/-- With one element that is no array, the elements are not arrays alone. -/
theorem mixed_of_mem {vs : List Value} (h : ∃ v ∈ vs, sequence? v = none) :
    ¬ (vs ≠ [] ∧ ∀ v ∈ vs, (sequence? v).isSome) := by
  rintro ⟨-, hall⟩
  obtain ⟨v, hv, hnone⟩ := h
  simpa [hnone] using hall v hv

/-- A list of empty arrays asks for nothing, be it read as one or the other. -/
theorem inJsonAtom_empty {vs : List Value} (h : ∀ v ∈ vs, sequence? v = some []) :
    inJsonAtom d utc c (.list vs) = .ok .never := by
  by_cases hnil : vs = []
  · subst hnil
    rfl
  · have harrays : vs ≠ [] ∧ ∀ v ∈ vs, (sequence? v).isSome :=
      ⟨hnil, fun v hv => by rw [h v hv]; rfl⟩
    have hempty : ∀ us ∈ vs.filterMap sequence?, us = [] := by
      intro us hus
      obtain ⟨v, hv, hseq⟩ := List.mem_filterMap.mp hus
      rw [h v hv] at hseq
      exact (Option.some.inj hseq).symm
    rw [inJsonAtom_arrays harrays, containmentTests_empty hempty]
    rfl

/-- Beside other values, arrays without gaps are tested for overlap with or without the values that
were not given, if the others are not the only reason for it. -/
theorem inJsonAtom_pruned_mixed {vs : List Value} (hmixed : ∃ v ∈ vs, sequence? v = none)
    (h : ¬ TornElements vs) :
    inJsonAtom d utc c (.list (prunedItems vs)) = inJsonAtom d utc c (.list vs) := by
  have hgaps : ¬ TornItems vs := fun hgap => h ⟨hmixed, .inl hgap⟩
  rw [prunedItems_eq hgaps]
  by_cases hall : ∀ v ∈ given vs, (sequence? v).isSome
  · have hempty : ∀ v ∈ given vs, sequence? v = some [] := by
      intro v hv
      obtain ⟨us, hus⟩ := Option.isSome_iff_exists.mp (hall v hv)
      cases us with
      | nil => exact hus
      | cons x xs => exact absurd ⟨hmixed, .inr ⟨hall, v, (mem_given.mp hv).1, x, xs, hus⟩⟩ h
    have hspread : spread vs = [] := by
      rw [← spread_given, spread_eq]
      exact List.flatMap_eq_nil_iff.mpr fun v hv => by rw [hempty v hv]; rfl
    rw [inJsonAtom_empty hempty, inJsonAtom_mixed (mixed_of_mem hmixed), hspread]
    rfl
  · have hgiven : ∃ v ∈ given vs, sequence? v = none := by simpa using hall
    rw [inJsonAtom_mixed (mixed_of_mem hgiven), inJsonAtom_mixed (mixed_of_mem hmixed), spread_given]

/-- Absent elements make no difference to a JSON test, unless they are torn. -/
theorem inJsonAtom_pruned {vs : List Value} (h : ¬ TornElements vs) :
    inJsonAtom d utc c (.list (prunedItems vs)) = inJsonAtom d utc c (.list vs) := by
  by_cases hmixed : ∃ v ∈ vs, sequence? v = none
  · exact inJsonAtom_pruned_mixed hmixed h
  · cases vs with
    | nil => rfl
    | cons v vs =>
      refine inJsonAtom_pruned_arrays ⟨by simp, ?_⟩
      intro u hu
      rw [Option.isSome_iff_ne_none]
      exact fun hnone => hmixed ⟨u, hu, hnone⟩

/-- No containment test, alone or among others, is an overlap test. -/
theorem overlaps_ne_someOf {n : Nat} {cs : List Condition}
    (h : ∀ e ∈ cs, ∃ m, e = JsonTest.containsCondition d c m) :
    JsonTest.overlapsCondition d c n ≠ Condition.someOf cs := by
  match cs with
  | [] => cases d <;> simp [JsonTest.overlapsCondition, JsonTest.callCondition, Condition.someOf,
      Condition.never]
  | [e] =>
    obtain ⟨m, rfl⟩ := h e (by simp)
    cases d <;> simp [JsonTest.overlapsCondition, JsonTest.containsCondition,
      JsonTest.callCondition, Condition.someOf, Condition.anyOf]
  | e :: e' :: rest => cases d <;> simp [JsonTest.overlapsCondition, JsonTest.callCondition,
      Condition.someOf, Condition.anyOf]

/-- The values that an overlap test binds. -/
theorem params_of_mixed {vs : List Value} {a : Atom} (hmixed : ∃ v ∈ vs, sequence? v = none)
    (h : inJsonAtom d utc c (.list vs) = .ok a) :
    (Fragment.params (a.fragment d)).length = (spread vs).length ∧
      (spread vs ≠ [] → ∃ n, a.condition d = JsonTest.overlapsCondition d c n) := by
  rw [inJsonAtom_mixed (mixed_of_mem hmixed)] at h
  cases hflat : spread vs with
  | nil =>
    obtain rfl : Atom.never = a := by simpa [hflat] using h
    exact ⟨rfl, fun hne => absurd rfl hne⟩
  | cons v rest =>
    obtain ⟨params, hparams, rfl⟩ : ∃ params, (v :: rest).mapM (Value.parameter utc) = .ok params ∧
        .json c (.overlaps params) = a := by
      simpa [hflat] using h
    have hlength := length_of_mapM_eq_ok hparams
    refine ⟨?_, fun _ => ⟨params.length, rfl⟩⟩
    rw [← hlength]
    cases d <;> simp [Atom.fragment, JsonTest.fragment]

/-- Torn elements of an overlap test are bound or tested differently. -/
theorem inJsonAtom_torn {vs : List Value} {a b : Atom} (htorn : TornElements vs)
    (ha : inJsonAtom d utc c (.list vs) = .ok a)
    (hb : inJsonAtom d utc c (.list (prunedItems vs)) = .ok b) :
    Filter.view d a ≠ Filter.view d b := by
  obtain ⟨hmixed, hreason⟩ := htorn
  obtain ⟨hlength, hoverlap⟩ := params_of_mixed hmixed ha
  intro hview
  have hcondition : a.condition d = b.condition d := congrArg Prod.fst hview
  have hbound : Fragment.params (a.fragment d) = Fragment.params (b.fragment d) :=
    congrArg Prod.snd hview
  by_cases hall : ∀ v ∈ given vs, (sequence? v).isSome
  · -- The arrays alone are tested for containment.
    obtain ⟨v, hv, x, xs, hseq⟩ : ∃ v ∈ vs, ∃ x xs, sequence? v = some (x :: xs) := by
      obtain ⟨v, hv, us, hus, hmem⟩ | ⟨-, hsome⟩ := hreason
      · cases us with
        | nil => simp at hmem
        | cons x xs => exact ⟨v, hv, x, xs, hus⟩
      · exact hsome
    have hspread : spread vs ≠ [] := by
      rw [spread_eq]
      intro hnil
      simpa [hseq] using List.flatMap_eq_nil_iff.mp hnil v hv
    have hgiven : v ∈ given vs := mem_given.mpr ⟨hv, isUnset_of_sequence (by simp [hseq])⟩
    have harrays : prunedItems vs ≠ [] ∧ ∀ u ∈ prunedItems vs, (sequence? u).isSome := by
      refine ⟨List.ne_nil_of_mem (List.mem_map_of_mem hgiven), ?_⟩
      intro u hu
      obtain ⟨w, hw, rfl⟩ := List.mem_map.mp hu
      simpa [sequence_pruned] using hall w hw
    rw [inJsonAtom_arrays harrays] at hb
    obtain ⟨ts, hts, rfl⟩ := map_eq_ok.mp hb
    obtain ⟨hproper, hmap⟩ := containmentTests_mean (c := c) hts
    obtain ⟨n, hn⟩ := hoverlap hspread
    rw [(ofTests_means c hproper).condition, hn, hmap] at hcondition
    refine overlaps_ne_someOf ?_ hcondition
    intro e he
    obtain ⟨us, -, rfl⟩ := List.mem_map.mp he
    exact ⟨_, rfl⟩
  · -- There remain fewer values to bind.
    have hgap : ∃ v ∈ vs, HasGap v := hreason.resolve_right fun h => hall h.1
    obtain ⟨w, hw, hnone⟩ : ∃ w ∈ given vs, sequence? w = none := by simpa using hall
    have hpruned : ∃ v ∈ prunedItems vs, sequence? v = none :=
      ⟨pruned w, List.mem_map_of_mem hw, by rw [sequence_pruned, hnone]; rfl⟩
    obtain ⟨hfewer, -⟩ := params_of_mixed hpruned hb
    rw [← hbound, hlength, spread_prunedItems] at hfewer
    obtain ⟨v, hv, us, hus, hmem⟩ := hgap
    have hunset : .unset ∈ spread vs := by
      rw [spread_eq, List.mem_flatMap]
      exact ⟨v, hv, by simpa [hus] using hmem⟩
    have hall' := List.length_filter_eq_length_iff.mp hfewer.symm
    simpa [Value.isUnset] using hall' .unset hunset

/-! ## Operands -/

/-- Paths that were not given are passed over. -/
theorem pathTests_given (pattern : Value) (fields : List (String × Value)) :
    pathTests pattern (fields.filter fun f => !f.2.isUnset) = pathTests pattern fields := by
  induction fields with
  | nil => rfl
  | cons field rest ih =>
    obtain ⟨key, operand⟩ := field
    cases operand <;> simp_all [pathTests, Value.isUnset, isVoid]

/-- A pattern for texts sees no difference between an operand and the pruned one. -/
theorem likeAtom_pruned (operand pattern : Value) :
    likeAtom c (prunedOperand .like operand) pattern = likeAtom c operand pattern := by
  cases operand with
  | record fields =>
    have hvoid : ∀ fs, isVoid (.record fs) = false := fun _ => rfl
    simp only [prunedOperand, likeAtom, hvoid, pathTests_given]
  | _ => rfl

/-- The atom of an operator with an operand. -/
def operandAtom (d : Dialect) (utc : Bool) (c : ColumnRef) (op : Operator) (operand pattern : Value) :
    Except Error (Option Atom) :=
  match operand with
  | .unset => .ok none
  | .null => .ok (nullAtom c op)
  | _ =>
    match op with
    | .compare comparison =>
      (Value.parameter utc operand).map fun v => some (.compare c comparison v)
    | .like => likeAtom c operand (if pattern.isTrue then pattern else .text "contains")
    | .oneOf => (oneOfAtom utc c (operandItems operand)).map some
    | .inJson => (inJsonAtom d utc c operand).map some

/-- An atom of an operator is that of its operand and its pattern. -/
theorem operatorAtom_eq (operator : Value) (fields : Record) :
    operatorAtom d utc c operator fields = (Operator.ofValue operator).bind fun op =>
      operandAtom d utc c op (Record.getD "value" fields) (Record.getD "pattern" fields) := by
  unfold operatorAtom
  cases Operator.ofValue operator with
  | error e => rfl
  | ok op =>
    change _ = operandAtom d utc c op (Record.getD "value" fields) (Record.getD "pattern" fields)
    cases Record.getD "value" fields <;> cases op <;> rfl

/-- Pruning makes no difference to an operand that is not torn. -/
theorem operandAtom_pruned {op : Operator} {operand : Value} (h : ¬ TornOperand op operand)
    (pattern : Value) :
    operandAtom d utc c op (prunedOperand op operand) pattern =
      operandAtom d utc c op operand pattern := by
  cases op with
  | compare comparison => cases operand <;> rfl
  | like =>
    have hlike := likeAtom_pruned (c := c) operand
      (if pattern.isTrue then pattern else .text "contains")
    cases operand with
    | record fields => exact hlike
    | _ => rfl
  | oneOf =>
    cases operand with
    | list vs => exact congrArg (Except.map some) (oneOfAtom_pruned h)
    | tuple vs => exact congrArg (Except.map some) (oneOfAtom_pruned h)
    | set vs => exact congrArg (Except.map some) (oneOfAtom_pruned h)
    | _ => rfl
  | inJson =>
    cases operand with
    | list vs => exact congrArg (Except.map some) (inJsonAtom_pruned h)
    | tuple vs => exact congrArg (Except.map some) (inJsonAtom_pruned h)
    | _ => rfl

/-- What an operand is compiled to with and without the values in it that were not given: both are
atoms, and they differ in what they say or bind. -/
def Differ (d : Dialect) (x y : Option Atom) : Prop :=
  ∃ a b, x = some a ∧ y = some b ∧ Filter.view d a ≠ Filter.view d b

/-- A single item that is no sequence is not torn. -/
theorem not_tornItems_single {v : Value} (h : sequence? v = none) : ¬ TornItems [v] := by
  rintro ⟨u, hu, us, hus, -⟩
  obtain rfl := List.mem_singleton.mp hu
  simp [h] at hus

/-- A single element that is no array is not torn. -/
theorem not_tornElements_single {v : Value} (h : sequence? v = none) : ¬ TornElements [v] := by
  rintro ⟨-, hgap | ⟨-, u, hu, x, xs, hseq⟩⟩
  · exact not_tornItems_single h hgap
  · obtain rfl := List.mem_singleton.mp hu
    simp [h] at hseq

/-- Torn items are bound otherwise than the pruned ones. -/
theorem oneOf_differ {vs : List Value} {x y : Option Atom} (h : TornItems vs)
    (hx : (oneOfAtom utc c vs).map some = .ok x)
    (hy : (oneOfAtom utc c (prunedItems vs)).map some = .ok y) : Differ d x y := by
  obtain ⟨a, ha, rfl⟩ := map_eq_ok.mp hx
  obtain ⟨b, hb, rfl⟩ := map_eq_ok.mp hy
  exact ⟨a, b, rfl, rfl, oneOfAtom_torn h ha hb⟩

/-- Torn elements are bound otherwise than the pruned ones. -/
theorem inJson_differ {vs : List Value} {x y : Option Atom} (h : TornElements vs)
    (hx : (inJsonAtom d utc c (.list vs)).map some = .ok x)
    (hy : (inJsonAtom d utc c (.list (prunedItems vs))).map some = .ok y) : Differ d x y := by
  obtain ⟨a, ha, rfl⟩ := map_eq_ok.mp hx
  obtain ⟨b, hb, rfl⟩ := map_eq_ok.mp hy
  exact ⟨a, b, rfl, rfl, inJsonAtom_torn h ha hb⟩

/-- A torn operand is bound otherwise than the pruned one. -/
theorem operandAtom_torn {op : Operator} {operand pattern : Value} {x y : Option Atom}
    (h : TornOperand op operand) (hx : operandAtom d utc c op operand pattern = .ok x)
    (hy : operandAtom d utc c op (prunedOperand op operand) pattern = .ok y) : Differ d x y := by
  cases op with
  | compare comparison => exact h.elim
  | like => exact h.elim
  | oneOf =>
    cases operand with
    | list vs => exact oneOf_differ h hx hy
    | tuple vs => exact oneOf_differ h hx hy
    | set vs => exact oneOf_differ h hx hy
    | _ => exact absurd h (not_tornItems_single rfl)
  | inJson =>
    cases operand with
    | list vs => exact inJson_differ h hx hy
    | tuple vs => exact inJson_differ h hx hy
    | _ => exact absurd h (not_tornElements_single rfl)

/-! ## Entries -/

variable {owner : Value} {key : String}

/-- A list stands for one of its items. -/
theorem entryAtom_list (vs : List Value) :
    entryAtom d owner utc key (.list vs) = ((ColumnRef.ofKey key).within owner).bind fun c =>
      (oneOfAtom utc c vs).map some := by
  unfold entryAtom
  cases (ColumnRef.ofKey key).within owner with
  | error e => rfl
  | ok c =>
    change (do return some (← oneOfAtom utc c vs)) = (oneOfAtom utc c vs).map some
    cases oneOfAtom utc c vs <;> rfl

/-- A record with an operator stands for what the operator makes of its operand. -/
theorem entryAtom_record {fields : Record} {op : Operator} (h : operatorOf? fields = some op) :
    entryAtom d owner utc key (.record fields) = ((ColumnRef.ofKey key).within owner).bind fun c =>
      operandAtom d utc c op (Record.getD "value" fields) (Record.getD "pattern" fields) := by
  obtain ⟨operator, hoperator, hname⟩ := Option.bind_eq_some_iff.mp h
  have hvalue : Operator.ofValue operator = .ok op := by simp [Operator.ofValue, hname]
  unfold entryAtom
  cases (ColumnRef.ofKey key).within owner with
  | error e => rfl
  | ok c =>
    simp only [Value.isUnset, Bool.false_eq_true, if_false, bind, Except.bind, hoperator]
    rw [operatorAtom_eq, hvalue]
    rfl

/-- A record without an operator is compared with as a whole, if it compiles at all. -/
theorem get?_operator_of_ok {fields : Record} {x : Option Atom} (h : operatorOf? fields = none)
    (hx : entryAtom d owner utc key (.record fields) = .ok x) :
    Record.get? "operator" fields = none := by
  cases hoperator : Record.get? "operator" fields with
  | none => rfl
  | some operator =>
    have hname : Operator.ofName? (String.ofList (Text.upper operator.display.toList)) = none := by
      simpa [operatorOf?, hoperator] using h
    obtain ⟨c, -, hatom⟩ := bind_eq_ok.mp hx
    have hfails : operatorAtom d utc c operator fields = .ok x := by simpa [hoperator] using hatom
    simp [operatorAtom_eq, Operator.ofValue, hname, refuse, Except.bind] at hfails

/-- Pruning the fields of an operator prunes its operand and nothing else. -/
theorem operatorOf?_prunedFields {fields : Record} {op : Operator} (h : operatorOf? fields = some op) :
    operatorOf? (prunedFields fields) = some op ∧
      Record.getD "value" (prunedFields fields) =
        prunedOperand op (Record.getD "value" fields) ∧
      Record.getD "pattern" (prunedFields fields) = Record.getD "pattern" fields := by
  simp only [prunedFields, h]
  refine ⟨?_, ?_, ?_⟩
  · rw [operatorOf?, Record.get?_set_of_ne (by decide)]
    exact h
  · rw [Record.getD, Record.get?_set_self]
    rfl
  · rw [Record.getD, Record.get?_set_of_ne (by decide)]
    rfl

/-- What leaving out values does to an entry with an atom or none: the entry itself is left out and
had no atom, or what remains has the same atom, or a different one if an operand is torn. -/
inductive Erased (d : Dialect) (owner : Value) (utc : Bool) (entry : String × Value)
    (x : Option Atom) : Option (String × Value) → Prop
  | dropped (hatom : x = none) (htorn : ¬ Torn entry) : Erased d owner utc entry x none
  | kept (rest : String × Value)
      (same : ¬ Torn entry → entryAtom d owner utc rest.1 rest.2 = .ok x)
      (differ : Torn entry → ∀ y, entryAtom d owner utc rest.1 rest.2 = .ok y → Differ d x y) :
      Erased d owner utc entry x (some rest)

/-- Of a list, erasing is unnoticed or makes a difference, as the items are torn or not. -/
theorem erased_items {vs : List Value} {x : Option Atom}
    (h : entryAtom d owner utc key (.list vs) = .ok x) :
    (¬ TornItems vs → entryAtom d owner utc key (.list (prunedItems vs)) = .ok x) ∧
      (TornItems vs → ∀ y, entryAtom d owner utc key (.list (prunedItems vs)) = .ok y →
        Differ d x y) := by
  rw [entryAtom_list] at h
  obtain ⟨c, hcolumn, hx⟩ := bind_eq_ok.mp h
  simp only [entryAtom_list, hcolumn]
  refine ⟨?_, ?_⟩
  · intro htorn
    rw [← hx]
    exact congrArg (Except.map some) (oneOfAtom_pruned htorn)
  · intro htorn y hy
    exact oneOf_differ htorn hx hy

/-- Of an operator, erasing is unnoticed or makes a difference, as the operand is torn or not. -/
theorem erased_operand {fields : Record} {op : Operator} {x : Option Atom}
    (hop : operatorOf? fields = some op)
    (h : entryAtom d owner utc key (.record fields) = .ok x) :
    (¬ TornOperand op (Record.getD "value" fields) →
        entryAtom d owner utc key (.record (prunedFields fields)) = .ok x) ∧
      (TornOperand op (Record.getD "value" fields) →
        ∀ y, entryAtom d owner utc key (.record (prunedFields fields)) = .ok y →
          Differ d x y) := by
  rw [entryAtom_record hop] at h
  obtain ⟨c, hcolumn, hx⟩ := bind_eq_ok.mp h
  obtain ⟨hop', hvalue, hpattern⟩ := operatorOf?_prunedFields hop
  simp only [entryAtom_record hop', hcolumn, hvalue, hpattern]
  refine ⟨?_, ?_⟩
  · intro htorn
    rw [← hx]
    exact operandAtom_pruned htorn _
  · intro htorn y hy
    exact operandAtom_torn htorn hx hy

/-- Of any entry, erasing is unnoticed or makes a difference. -/
theorem entryAtom_erased {value : Value} {x : Option Atom}
    (h : entryAtom d owner utc key value = .ok x) :
    Erased d owner utc (key, value) x (eraseField (key, value)) := by
  cases value with
  | unset =>
    have hx : none = x := by simpa [entryAtom, Value.isUnset] using h
    exact .dropped hx.symm id
  | list vs =>
    obtain ⟨hsame, hdiffer⟩ := erased_items h
    exact .kept (key, .list (prunedItems vs)) hsame hdiffer
  | tuple vs =>
    obtain ⟨hsame, hdiffer⟩ := erased_items h
    exact .kept (key, .tuple (prunedItems vs)) hsame hdiffer
  | record fields =>
    cases hop : operatorOf? fields with
    | none =>
      have hoperator := get?_operator_of_ok hop h
      have herase : eraseField (key, .record fields) = some (key, .record fields) := by
        simp [eraseField, Record.has, hoperator, prunedFields, hop]
      have htorn : ¬ Torn (key, .record fields) := by
        rintro ⟨op, hsome, -⟩
        simp [hop] at hsome
      rw [herase]
      exact .kept _ (fun _ => h) fun h => absurd h htorn
    | some op =>
      have htorn : Torn (key, .record fields) ↔ TornOperand op (Record.getD "value" fields) := by
        simp [Torn, hop]
      have hhas : Record.has "operator" fields = true := by
        obtain ⟨operator, hoperator, -⟩ := Option.bind_eq_some_iff.mp hop
        simp [Record.has, hoperator]
      by_cases hunset : (Record.getD "value" fields).isUnset = true
      · have hvalue : Record.getD "value" fields = .unset := by
          cases hv : Record.getD "value" fields <;> simp_all [Value.isUnset]
        have herase : eraseField (key, .record fields) = none := by
          simp [eraseField, hhas, hunset]
        rw [entryAtom_record hop, hvalue] at h
        obtain ⟨c, -, hx⟩ := bind_eq_ok.mp h
        rw [herase]
        refine .dropped (Except.ok.inj hx).symm ?_
        rw [htorn, hvalue]
        cases op with
        | compare comparison => exact id
        | like => exact id
        | oneOf => exact not_tornItems_single rfl
        | inJson => exact not_tornElements_single rfl
      · have herase : eraseField (key, .record fields) = some (key, .record (prunedFields fields)) := by
          simp [eraseField, hunset]
        obtain ⟨hsame, hdiffer⟩ := erased_operand hop h
        rw [herase]
        refine .kept _ ?_ ?_
        · rwa [htorn]
        · rwa [htorn]
  | _ => exact .kept _ (fun _ => h) fun h => h.elim

/-! ## Conditions -/

/-- The fields of a record, none for any other value. -/
def fieldsOf : Value → List (String × Value)
  | .record fields => fields
  | _ => []

/-- Where no entry is torn, all may be erased unnoticed. -/
theorem entryAtoms_erased {fields : List (String × Value)} {as : List Atom}
    (h : entryAtoms d owner utc fields = .ok as) (htorn : ∀ e ∈ fields, ¬ Torn e) :
    entryAtoms d owner utc (fields.filterMap eraseField) = .ok as := by
  induction fields generalizing as with
  | nil => exact h
  | cons entry rest ih =>
    obtain ⟨key, value⟩ := entry
    obtain ⟨hfirst, hothers⟩ := List.forall_mem_cons.mp htorn
    obtain ⟨x, hx, hrest⟩ := bind_eq_ok.mp h
    have herased := entryAtom_erased hx
    rw [List.filterMap_cons]
    cases hentry : eraseField (key, value) with
    | none =>
      rw [hentry] at herased
      cases herased with
      | dropped hatom _ =>
        subst hatom
        exact ih hrest hothers
    | some e =>
      rw [hentry] at herased
      cases herased with
      | kept _ same _ =>
        rw [entryAtoms, same hfirst]
        cases x with
        | none => exact ih hrest hothers
        | some a =>
          obtain ⟨later, hlater, rfl⟩ := functor_map_eq_ok.mp hrest
          exact functor_map_eq_ok.mpr ⟨later, ih hlater hothers, rfl⟩

/-- The atoms of a condition with and without the values that were not given are equally many, and
they differ if an operand is torn. -/
theorem entryAtoms_differ {fields : List (String × Value)} {as bs : List Atom}
    (ha : entryAtoms d owner utc fields = .ok as)
    (hb : entryAtoms d owner utc (fields.filterMap eraseField) = .ok bs) :
    as.length = bs.length ∧
      ((∃ e ∈ fields, Torn e) → as.map (Filter.view d) ≠ bs.map (Filter.view d)) := by
  induction fields generalizing as bs with
  | nil =>
    obtain rfl : [] = as := by simpa [entryAtoms] using ha
    obtain rfl : [] = bs := by simpa [entryAtoms] using hb
    simp
  | cons entry rest ih =>
    obtain ⟨key, value⟩ := entry
    obtain ⟨x, hx, hrest⟩ := bind_eq_ok.mp ha
    have herased := entryAtom_erased hx
    rw [List.filterMap_cons] at hb
    cases hentry : eraseField (key, value) with
    | none =>
      rw [hentry] at herased hb
      cases herased with
      | dropped hatom htorn =>
        subst hatom
        obtain ⟨hlength, hdiffer⟩ := ih hrest hb
        exact ⟨hlength, by simpa [htorn] using hdiffer⟩
    | some e =>
      rw [hentry] at herased hb
      cases herased with
      | kept _ same differ =>
        obtain ⟨y, hy, hlater⟩ := bind_eq_ok.mp hb
        by_cases htorn : Torn (key, value)
        · obtain ⟨a, b, rfl, rfl, hview⟩ := differ htorn y hy
          obtain ⟨as, has, rfl⟩ := functor_map_eq_ok.mp hrest
          obtain ⟨bs, hbs, rfl⟩ := functor_map_eq_ok.mp hlater
          obtain ⟨hlength, -⟩ := ih has hbs
          refine ⟨by simp [hlength], fun _ hmap => hview ?_⟩
          exact (List.cons.inj hmap).1
        · obtain rfl : x = y := Except.ok.inj ((same htorn).symm.trans hy)
          cases x with
          | none =>
            obtain ⟨hlength, hdiffer⟩ := ih hrest hlater
            exact ⟨hlength, by simpa [htorn] using hdiffer⟩
          | some a =>
            obtain ⟨as, has, rfl⟩ := functor_map_eq_ok.mp hrest
            obtain ⟨bs, hbs, rfl⟩ := functor_map_eq_ok.mp hlater
            obtain ⟨hlength, hdiffer⟩ := ih has hbs
            exact ⟨by simp [hlength], by simpa [htorn] using hdiffer⟩

/-- Erasing the gaps of a condition erases those of its fields. -/
theorem conditionOf_erase {query : Value} {fields : Record}
    (h : Filter.conditionOf query = .ok fields) :
    fieldsOf query = fields ∧ Filter.conditionOf (erase query) = .ok (fields.filterMap eraseField) := by
  unfold Filter.conditionOf at h
  split_ifs at h with htrue
  · cases query with
    | record fs =>
      obtain rfl : fs = fields := Except.ok.inj h
      refine ⟨rfl, ?_⟩
      rw [erase, Filter.conditionOf]
      cases hkept : fs.filterMap eraseField with
      | nil => rfl
      | cons e rest => rfl
    | _ => simp [misfit] at h
  · obtain rfl : [] = fields := Except.ok.inj h
    cases query with
    | record fs =>
      obtain rfl : fs = [] := by simpa [Value.isTrue] using htrue
      exact ⟨rfl, rfl⟩
    | _ => exact ⟨rfl, by simp [erase, Filter.conditionOf, htrue]⟩

/-- Erasing the gaps of a group erases those of its fields. -/
theorem groupOf_erase {group : Value} {fields : Record} (h : Filter.groupOf group = .ok fields) :
    fieldsOf group = fields ∧ Filter.groupOf (erase group) = .ok (fields.filterMap eraseField) := by
  cases group with
  | record fs =>
    obtain rfl : fs = fields := Except.ok.inj h
    exact ⟨rfl, rfl⟩
  | _ => simp [Filter.groupOf, misfit] at h

/-- Where no entry of any group is torn, all groups may be erased unnoticed. -/
theorem compileGroups_erased {groups : List Value} {gs : List (List Atom)}
    (h : Filter.compileGroups d owner utc groups = .ok gs)
    (htorn : ∀ g ∈ groups, ∀ e ∈ fieldsOf g, ¬ Torn e) :
    Filter.compileGroups d owner utc (groups.map erase) = .ok gs := by
  induction groups generalizing gs with
  | nil => exact h
  | cons group rest ih =>
    obtain ⟨hfirst, hothers⟩ := List.forall_mem_cons.mp htorn
    obtain ⟨fields, hfields, hgroup⟩ := bind_eq_ok.mp h
    obtain ⟨as, has, hrest⟩ := bind_eq_ok.mp hgroup
    obtain ⟨others, hlater, hgs⟩ := bind_eq_ok.mp hrest
    obtain ⟨rfl, herase⟩ := groupOf_erase hfields
    rw [List.map_cons, Filter.compileGroups, herase]
    exact bind_eq_ok.mpr ⟨_, rfl, bind_eq_ok.mpr ⟨as, entryAtoms_erased has hfirst,
      bind_eq_ok.mpr ⟨others, ih hlater hothers, hgs⟩⟩⟩

/-- The same of groups: they keep their shape, and differ if an operand is torn. -/
theorem compileGroups_differ {groups : List Value} {gs hs : List (List Atom)}
    (hg : Filter.compileGroups d owner utc groups = .ok gs)
    (hh : Filter.compileGroups d owner utc (groups.map erase) = .ok hs) :
    gs.map List.length = hs.map List.length ∧ ((∃ g ∈ groups, ∃ e ∈ fieldsOf g, Torn e) →
      gs.flatten.map (Filter.view d) ≠ hs.flatten.map (Filter.view d)) := by
  induction groups generalizing gs hs with
  | nil =>
    obtain rfl : [] = gs := by simpa [Filter.compileGroups] using hg
    obtain rfl : [] = hs := by simpa [Filter.compileGroups] using hh
    simp
  | cons group rest ih =>
    obtain ⟨fields, hfields, hgroup⟩ := bind_eq_ok.mp hg
    obtain ⟨as, has, hrest⟩ := bind_eq_ok.mp hgroup
    obtain ⟨others, hothers, hgs⟩ := bind_eq_ok.mp hrest
    obtain ⟨rfl, herase⟩ := groupOf_erase hfields
    obtain ⟨erased, herased, hgroup'⟩ := bind_eq_ok.mp hh
    rw [herase] at herased
    obtain rfl := Except.ok.inj herased
    obtain ⟨bs, hbs, hrest'⟩ := bind_eq_ok.mp hgroup'
    obtain ⟨others', hothers', hhs⟩ := bind_eq_ok.mp hrest'
    obtain ⟨hlength, hdiffer⟩ := entryAtoms_differ has hbs
    obtain ⟨hlengths, hdiffers⟩ := ih hothers hothers'
    have hempty : bs = [] ↔ as = [] := by
      rw [← List.length_eq_zero_iff, ← List.length_eq_zero_iff, hlength]
    have htorn : (∃ g ∈ group :: rest, ∃ e ∈ fieldsOf g, Torn e) →
        as.map (Filter.view d) ++ others.flatten.map (Filter.view d) ≠
          bs.map (Filter.view d) ++ others'.flatten.map (Filter.view d) := by
      intro hex hmap
      obtain ⟨hfirst, hlater⟩ := List.append_inj hmap (by simp [hlength])
      obtain ⟨g, hmem, he⟩ := hex
      obtain rfl | hmem := List.mem_cons.mp hmem
      · exact hdiffer he hfirst
      · exact hdiffers ⟨g, hmem, he⟩ hlater
    cases as with
    | nil =>
      obtain rfl : bs = [] := hempty.mpr rfl
      obtain rfl : others = gs := by simpa using hgs
      obtain rfl : others' = hs := by simpa using hhs
      exact ⟨hlengths, by simpa using htorn⟩
    | cons a as =>
      have hne : bs ≠ [] := by simp [hempty]
      obtain rfl : (a :: as) :: others = gs := by simpa using hgs
      obtain rfl : bs :: others' = hs := by simpa [hne] using hhs
      refine ⟨by simpa [hlengths] using hlength, ?_⟩
      simpa using htorn

/-- Compiling a condition without the values that were not given succeeds when compiling the
condition does, and gives the same text with the same parameters, exactly if no operand is torn. -/
theorem compile_erased_iff (d : Dialect) (owner : Value) (utc : Bool) (query : Value)
    (groups : List Value) (f : Filter) (h : Filter.compile d owner utc query groups = .ok f) :
    (∃ g, Filter.compile d owner utc (erase query) (groups.map erase) = .ok g ∧
        (g.fragment d).statement d = (f.fragment d).statement d) ↔
      ∀ v ∈ query :: groups, ∀ e ∈ fieldsOf v, ¬ Torn e := by
  obtain ⟨fields, hfields, hquery⟩ := bind_eq_ok.mp h
  obtain ⟨main, hmain, hrest⟩ := bind_eq_ok.mp hquery
  obtain ⟨compiled, hgroups, rfl⟩ := functor_map_eq_ok.mp hrest
  obtain ⟨rfl, herase⟩ := conditionOf_erase hfields
  constructor
  · rintro ⟨g, hg, hstatement⟩
    obtain ⟨erased, herased, hquery'⟩ := bind_eq_ok.mp hg
    rw [herase] at herased
    obtain rfl := Except.ok.inj herased
    obtain ⟨main', hmain', hrest'⟩ := bind_eq_ok.mp hquery'
    obtain ⟨compiled', hgroups', rfl⟩ := functor_map_eq_ok.mp hrest'
    obtain ⟨hlength, hdiffer⟩ := entryAtoms_differ hmain hmain'
    obtain ⟨hlengths, hdiffers⟩ := compileGroups_differ hgroups hgroups'
    have hshape : Filter.shape ⟨main', compiled'⟩ = Filter.shape ⟨main, compiled⟩ := by
      rw [Filter.shape, Filter.shape, hlength, hlengths]
    have hviews := Filter.views_of_statement (compile_means hg).1 (compile_means h).1 hshape
      hstatement
    simp only [Filter.atoms, List.map_append] at hviews
    obtain ⟨hfirst, hlater⟩ := List.append_inj hviews (by simp [hlength])
    intro v hv e he htorn
    obtain rfl | hv := List.mem_cons.mp hv
    · exact hdiffer ⟨e, he, htorn⟩ hfirst.symm
    · exact hdiffers ⟨v, hv, e, he, htorn⟩ hlater.symm
  · intro htorn
    obtain ⟨hfirst, hothers⟩ := List.forall_mem_cons.mp htorn
    refine ⟨⟨main, compiled⟩, ?_, rfl⟩
    exact bind_eq_ok.mpr ⟨_, herase, bind_eq_ok.mpr ⟨main, entryAtoms_erased hmain hfirst,
      functor_map_eq_ok.mpr ⟨compiled, compileGroups_erased hgroups hothers, rfl⟩⟩⟩

/-- Values that were not given in all places where they may be, none of them tearing an operand. -/
theorem compile_erased_everywhere :
    let query : Value := .record [("a", .unset), ("b", .list [.int 1, .unset]),
      ("c", .record [("operator", .text "IN_JSON"),
        ("value", .list [.tuple [.int 1, .unset], .list [.int 2]])]),
      ("d", .record [("operator", .text "LIKE"),
        ("value", .record [("p", .unset), ("q", .text "x")])]),
      ("e", .record [("operator", .text ">")])]
    let erased : Value := .record [("b", .list [.int 1]),
      ("c", .record [("operator", .text "IN_JSON"),
        ("value", .list [.tuple [.int 1], .list [.int 2]])]),
      ("d", .record [("operator", .text "LIKE"), ("value", .record [("q", .text "x")])])]
    let f : Filter := ⟨[.oneOf (.plain "b") [.int 1],
      .anyJson (.plain "c") [.contains [.int 1], .contains [.int 2]],
      .anyJson (.plain "d") [.pathLike (.text "$.q") (.text "%x%")]], []⟩
    Filter.compile .sqlite .null true query [] = .ok f ∧ erase query = erased ∧
      ∃ g, Filter.compile .sqlite .null true erased [] = .ok g ∧
        (g.fragment .sqlite).statement .sqlite = (f.fragment .sqlite).statement .sqlite := by
  intro query erased f
  have h : Filter.compile .sqlite .null true query [] = .ok f := rfl
  have herase : erase query = erased := rfl
  refine ⟨h, herase, (compile_erased_iff .sqlite .null true query [] f h).mpr ?_⟩
  intro v hv e he htorn
  obtain rfl := List.mem_singleton.mp hv
  simp only [query, fieldsOf, List.mem_cons, List.not_mem_nil, or_false] at he
  obtain rfl | rfl | rfl | rfl | rfl := he
  · exact htorn
  · exact absurd htorn (by simp [Torn, TornItems, HasGap, sequence?])
  · obtain ⟨op, hop, hoperand⟩ := htorn
    obtain rfl : .inJson = op := Option.some.inj hop
    exact absurd hoperand.1 (by simp [Record.getD, Record.get?, sequence?])
  · obtain ⟨op, hop, hoperand⟩ := htorn
    obtain rfl : .like = op := Option.some.inj hop
    exact hoperand
  · obtain ⟨op, hop, hoperand⟩ := htorn
    obtain rfl : .compare .greater = op := Option.some.inj hop
    exact hoperand

/-- In an overlap test a value that was not given is bound when it stands in an array. -/
theorem compile_erased_ne :
    let query : Value := .record [("a", .record [("operator", .text "IN_JSON"),
      ("value", .list [.text "x", .list [.int 1, .unset]])])]
    ¬ ∀ f, Filter.compile .sqlite .null true query [] = .ok f →
      ∃ g, Filter.compile .sqlite .null true (erase query) [] = .ok g ∧
        (g.fragment .sqlite).statement .sqlite = (f.fragment .sqlite).statement .sqlite := by
  intro query h
  obtain ⟨g, hg, hsame⟩ :=
    h ⟨[.json (.plain "a") (.overlaps [.text "x", .int 1, .unset])], []⟩ rfl
  obtain rfl : ⟨[.json (.plain "a") (.overlaps [.text "x", .int 1])], []⟩ = g := Except.ok.inj hg
  have hlength : 2 = 3 := congrArg (fun s => s.params.length) hsame
  exact absurd hlength (by decide)

end Quarry.Sql
