import Quarry.Proofs.Sql.Shape

/-!
# Bound values are encoded

A driver takes numbers, texts, byte strings and NULL. Everything else has to be encoded before it is
bound, and a value that was not given must not be bound at all. What a condition supplies for
binding is written down here entry by entry (`suppliedBy`); its parameters are the encodings of what
it supplies, in order, where SQLite leaves out repetitions inside of a sub-array.

So the parameters can be bound unless a value that was not given is among what is supplied. That
happens in one place: IN_JSON spreads the sub-arrays of an operand that has other elements too, gaps
included (`Leaks`).
-/

set_option autoImplicit false

namespace Quarry

/-! ## Values that can be bound -/

/-- Whether a value may be handed to a driver: it was given, and it is not of a kind that has to be
encoded. -/
def Value.isBindable : Value → Bool
  | .unset => false
  | .bool _ => false
  | .moment _ => false
  | .date _ => false
  | .record _ => false
  | .list _ => false
  | _ => true

/-- A parameter can be bound unless its value was absent. -/
theorem Value.isBindable_parameter {utc : Bool} {v p : Value} (h : parameter utc v = .ok p) :
    p.isBindable = !v.isUnset := by
  cases v with
  | moment m =>
    obtain ⟨t, -, rfl⟩ := map_eq_ok.mp h
    rfl
  | record fields =>
    obtain ⟨t, -, rfl⟩ := map_eq_ok.mp h
    rfl
  | list vs =>
    obtain ⟨t, -, rfl⟩ := map_eq_ok.mp h
    rfl
  | _ =>
    obtain rfl := Except.ok.inj h
    rfl

namespace Sql

variable {d : Dialect} {utc : Bool} {c : ColumnRef}

/-- Parameters that are the encodings of what is supplied, in order. Encodings may be left out, but
a value that was not given is not. -/
structure Binds (utc : Bool) (supplied params : List Value) : Prop where
  encoded : ∃ all, List.Forall₂ (fun v p => Value.parameter utc v = .ok p) supplied all ∧
    params.Sublist all
  gap : .unset ∈ supplied → .unset ∈ params

namespace Binds

/-- Nothing is bound to nothing. -/
theorem nil : Binds utc [] [] := ⟨⟨[], .nil, .slnil⟩, id⟩

/-- Lists that are bound one after the other. -/
theorem append {vs ws ps qs : List Value} (h : Binds utc vs ps) (h' : Binds utc ws qs) :
    Binds utc (vs ++ ws) (ps ++ qs) := by
  obtain ⟨all, hall, hsub⟩ := h.encoded
  obtain ⟨all', hall', hsub'⟩ := h'.encoded
  refine ⟨⟨all ++ all', List.rel_append hall hall', hsub.append hsub'⟩, ?_⟩
  intro hgap
  obtain hgap | hgap := List.mem_append.mp hgap
  · exact List.mem_append_left _ (h.gap hgap)
  · exact List.mem_append_right _ (h'.gap hgap)

/-- Values whose parameters are made one by one are bound to them. -/
theorem of_mapM {vs ps : List Value} (h : vs.mapM (Value.parameter utc) = .ok ps) :
    Binds utc vs ps := by
  refine ⟨⟨ps, mapM_eq_ok_iff.mp h, List.Sublist.refl ps⟩, ?_⟩
  intro hgap
  exact (mem_iff_of_mapM_eq_ok h).mpr ⟨.unset, hgap, rfl⟩

/-- A value is bound to its parameter. -/
theorem of_parameter {v p : Value} (h : Value.parameter utc v = .ok p) : Binds utc [v] [p] :=
  of_mapM (by simp [h])

/-- Of values that were all given some encodings may be left out. -/
theorem of_parameters {vs ps qs : List Value} (h : Value.parameters utc vs = .ok ps)
    (hsub : qs.Sublist ps) : Binds utc (given vs) qs := by
  refine ⟨⟨ps, mapM_eq_ok_iff.mp h, hsub⟩, ?_⟩
  intro hgap
  exact absurd rfl (mem_given.mp hgap).2

/-- What is bound is the parameter of one of the values. -/
theorem mem {vs ps : List Value} (h : Binds utc vs ps) {p : Value} (hp : p ∈ ps) :
    ∃ v ∈ vs, Value.parameter utc v = .ok p := by
  obtain ⟨all, hall, hsub⟩ := h.encoded
  exact (mem_iff_of_mapM_eq_ok (mapM_eq_ok_iff.mpr hall)).mp (hsub.subset hp)

/-- All parameters can be bound exactly when all that is supplied was given. -/
theorem all_isBindable_iff {vs ps : List Value} (h : Binds utc vs ps) :
    (∀ p ∈ ps, p.isBindable = true) ↔ .unset ∉ vs := by
  constructor
  · intro hall hgap
    exact Bool.noConfusion (hall .unset (h.gap hgap))
  · intro hgap p hp
    obtain ⟨v, hv, hencoded⟩ := h.mem hp
    rw [Value.isBindable_parameter hencoded]
    cases v with
    | unset => exact absurd hv hgap
    | _ => rfl

end Binds

/-! ## What a condition supplies -/

/-- The text that LIKE matches with, if the pattern has a name. -/
def likeTexts (pattern operand : Value) : List Value :=
  match likeOperand operand pattern with
  | .ok text => [.text text]
  | .error _ => []

/-- What a LIKE supplies: its text, or the paths and texts of the entries that say something. -/
def suppliedByLike (operand pattern : Value) : List Value :=
  if isVoid operand then []
  else
    match operand with
    | .record fields => (fields.filter fun f => !isVoid f.2).flatMap fun f =>
        .text ("$." ++ f.1) :: likeTexts pattern f.2
    | v => likeTexts pattern v

/-- What an IN_JSON supplies: the given items of sub-arrays, or all elements and items. -/
def suppliedByInJson (operand : Value) : List Value :=
  let vs := elements operand
  if vs ≠ [] ∧ ∀ v ∈ vs, (sequence? v).isSome then (vs.filterMap sequence?).flatMap given
  else spread vs

/-- What an operator with an operand supplies. -/
def suppliedByOperand (op : Operator) (operand pattern : Value) : List Value :=
  match operand with
  | .unset => []
  | .null => []
  | _ =>
    match op with
    | .compare _ => [operand]
    | .oneOf => given (operandItems operand)
    | .inJson => suppliedByInJson operand
    | .like => suppliedByLike operand (if pattern.isTrue then pattern else .text "contains")

/-- What an operand that is given supplies, by operator. -/
theorem suppliedByOperand_given {operand : Value} (h : operand ≠ .unset ∧ operand ≠ .null)
    (op : Operator) (pattern : Value) : suppliedByOperand op operand pattern = match op with
      | .compare _ => [operand]
      | .oneOf => given (operandItems operand)
      | .inJson => suppliedByInJson operand
      | .like => suppliedByLike operand (if pattern.isTrue then pattern else .text "contains") := by
  cases operand with
  | unset => exact absurd rfl h.1
  | null => exact absurd rfl h.2
  | _ => rfl

/-- What the value of a key supplies. -/
def suppliedBy (value : Value) : List Value :=
  match value with
  | .unset => []
  | .null => []
  | .list vs => given vs
  | .tuple vs => given vs
  | .record fields =>
    match operatorOf? fields with
    | some op => suppliedByOperand op (Record.getD "value" fields) (Record.getD "pattern" fields)
    | none => [value]
  | v => [v]

/-- What conditions supply one after the other. -/
def suppliedIn (queries : List Value) : List Value :=
  queries.flatMap fun q => (fieldsOf q).flatMap fun e => suppliedBy e.2

/-- Elements of an operand of IN_JSON through which a value that was not given gets: some of them
are no sub-arrays, and a sub-array has a gap. -/
def LeakyElements (vs : List Value) : Prop := (∃ v ∈ vs, sequence? v = none) ∧ ∃ v ∈ vs, HasGap v

/-- A value of a key that lets through a value that was not given. -/
def Leaks (value : Value) : Prop :=
  operatorOf? (fieldsOf value) = some .inJson ∧
    LeakyElements (elements (Record.getD "value" (fieldsOf value)))

/-- A pattern for texts supplies nothing that is absent. -/
theorem unset_notMem_suppliedByLike (operand pattern : Value) :
    .unset ∉ suppliedByLike operand pattern := by
  have htexts : ∀ v, .unset ∉ likeTexts pattern v := by
    intro v hmem
    unfold likeTexts at hmem
    split at hmem <;> simp at hmem
  unfold suppliedByLike
  split
  · simp
  · split
    · intro hmem
      obtain ⟨f, -, hf⟩ := List.mem_flatMap.mp hmem
      obtain hf | hf := List.mem_cons.mp hf
      · exact Value.noConfusion hf
      · exact htexts f.2 hf
    · exact htexts _

/-- Nothing that is given is absent. -/
theorem unset_notMem_given (vs : List Value) : .unset ∉ given vs :=
  fun hmem => (mem_given.mp hmem).2 rfl

/-- Spreading leaves an absent value exactly if a sequence has a gap. -/
theorem unset_mem_spread_iff (vs : List Value) : .unset ∈ spread vs ↔ ∃ v ∈ vs, HasGap v := by
  rw [spread_eq, List.mem_flatMap]
  constructor
  · rintro ⟨v, hv, hmem⟩
    cases hseq : sequence? v with
    | none =>
      rw [hseq] at hmem
      exact absurd hmem (unset_notMem_given _)
    | some us =>
      rw [hseq] at hmem
      exact ⟨v, hv, us, hseq, hmem⟩
  · rintro ⟨v, hv, us, hseq, hmem⟩
    refine ⟨v, hv, ?_⟩
    rw [hseq]
    exact hmem

/-- A JSON test supplies an absent value exactly if its elements leak. -/
theorem unset_mem_suppliedByInJson_iff (operand : Value) :
    .unset ∈ suppliedByInJson operand ↔ LeakyElements (elements operand) := by
  unfold suppliedByInJson LeakyElements
  generalize elements operand = vs
  dsimp only
  by_cases harrays : vs ≠ [] ∧ ∀ v ∈ vs, (sequence? v).isSome
  · rw [if_pos harrays]
    constructor
    · intro hmem
      obtain ⟨us, -, hus⟩ := List.mem_flatMap.mp hmem
      exact absurd hus (unset_notMem_given us)
    · rintro ⟨⟨v, hv, hnone⟩, -⟩
      have hsome := harrays.2 v hv
      simp [hnone] at hsome
  · rw [if_neg harrays, unset_mem_spread_iff]
    constructor
    · intro hgap
      refine ⟨?_, hgap⟩
      -- Were all elements sub-arrays, the operand would be tested for containment.
      by_contra hall
      apply harrays
      obtain ⟨v, hv, -⟩ := hgap
      refine ⟨List.ne_nil_of_mem hv, ?_⟩
      intro w hw
      by_contra hnone
      exact hall ⟨w, hw, by simpa using hnone⟩
    · exact fun hleak => hleak.2

/-- An operand supplies an absent value exactly if it is that of a JSON test and its elements
leak. -/
theorem unset_mem_suppliedByOperand_iff (op : Operator) (operand pattern : Value) :
    .unset ∈ suppliedByOperand op operand pattern ↔
      op = .inJson ∧ LeakyElements (elements operand) := by
  by_cases hgiven : operand ≠ .unset ∧ operand ≠ .null
  · rw [suppliedByOperand_given hgiven]
    cases op with
    | compare _ => simpa using hgiven.1.symm
    | oneOf => simp [unset_notMem_given]
    | inJson => simp [unset_mem_suppliedByInJson_iff]
    | like => simp [unset_notMem_suppliedByLike]
  · -- An operand that is missing or NULL supplies nothing and is an element without gaps.
    cases operand with
    | unset => simp [suppliedByOperand, elements, sequence?, LeakyElements, HasGap]
    | null => simp [suppliedByOperand, elements, sequence?, LeakyElements, HasGap]
    | _ => exact absurd (by simp) hgiven

/-- What is supplied was given unless the value leaks. -/
theorem unset_mem_suppliedBy_iff (value : Value) : .unset ∈ suppliedBy value ↔ Leaks value := by
  cases value with
  | record fields =>
    unfold suppliedBy Leaks fieldsOf
    dsimp only
    cases operatorOf? fields with
    | none => simp
    | some op => simpa using unset_mem_suppliedByOperand_iff op _ _
  | list vs => simp [suppliedBy, unset_notMem_given, Leaks, fieldsOf, operatorOf?, Record.get?]
  | tuple vs => simp [suppliedBy, unset_notMem_given, Leaks, fieldsOf, operatorOf?, Record.get?]
  | _ => simp [suppliedBy, Leaks, fieldsOf, operatorOf?, Record.get?]

/-- Nothing absent is supplied exactly if no entry leaks. -/
theorem unset_notMem_suppliedIn_iff (queries : List Value) :
    .unset ∉ suppliedIn queries ↔ ∀ q ∈ queries, ∀ e ∈ fieldsOf q, ¬ Leaks e.2 := by
  simp only [suppliedIn, List.mem_flatMap, unset_mem_suppliedBy_iff, not_exists, not_and]

/-! ## What an atom binds -/

/-- The values that a test binds. -/
def JsonTest.values : JsonTest → List Value
  | .contains vs => vs
  | .overlaps vs => vs
  | .pathLike path pattern => [path, pattern]

/-- The values that an atom binds. -/
def Atom.values : Atom → List Value
  | .compare _ _ v => [v]
  | .oneOf _ vs => vs
  | .like _ p => [p]
  | .json _ t => t.values
  | .anyJson _ ts => ts.flatMap JsonTest.values
  | _ => []

/-- The parameters of a JSON test are its values. -/
theorem JsonTest.params_fragment (t : JsonTest) (c : ColumnRef) :
    Fragment.params (t.fragment d c.fragment) = t.values := by
  cases t <;> cases d <;> simp [fragment, values]

/-- The parameters of an atom are its values. -/
theorem Atom.params_fragment (a : Atom) : Fragment.params (a.fragment d) = a.values := by
  cases a with
  | json c t => exact t.params_fragment c
  | anyJson c ts =>
    rw [fragment, params_parenthesized, params_joined, List.flatMap_map]
    exact List.flatMap_congr fun t _ => t.params_fragment c
  | _ => simp [fragment, values]

/-- The parameters of a filter are the values of its atoms. -/
theorem Filter.params_eq (f : Filter) :
    Fragment.params (f.fragment d) = f.atoms.flatMap Atom.values := by
  rw [f.params_fragment]
  exact List.flatMap_congr fun a _ => a.params_fragment

/-- The values of an atom for one of some items are bound to those that are given. -/
theorem oneOfAtom_binds {vs : List Value} {a : Atom} (h : oneOfAtom utc c vs = .ok a) :
    Binds utc (given vs) a.values := by
  obtain ⟨ps, hps, rfl⟩ := functor_map_eq_ok.mp h
  cases ps with
  | nil => exact .of_parameters hps (List.Sublist.refl [])
  | cons p ps => exact .of_parameters hps (List.Sublist.refl (p :: ps))

/-- What is distinct is taken from the list in order. -/
theorem sublist_distinctFrom (seen vs : List Value) : (Value.distinctFrom seen vs).Sublist vs := by
  induction vs generalizing seen with
  | nil => exact List.Sublist.refl []
  | cons v rest ih =>
    unfold Value.distinctFrom
    split_ifs
    · exact (ih seen).cons v
    · exact (ih _).cons_cons v

/-- A test for containment has values of the list in order. -/
theorem containing_sublist {ps : List Value} {t : JsonTest} (h : JsonTest.containing d ps = .ok t) :
    t.values.Sublist ps := by
  cases d with
  | mysql =>
    obtain rfl := Except.ok.inj h
    exact List.Sublist.refl ps
  | sqlite =>
    simp only [JsonTest.containing, Value.dedupe?] at h
    split_ifs at h
    · obtain rfl := Except.ok.inj h
      exact sublist_distinctFrom [] ps
    · simp [misfit] at h

/-- The values of tests for containment are bound to the given ones of the arrays. -/
theorem containmentTests_binds {arrays : List (List Value)} {ts : List JsonTest}
    (h : containmentTests d utc arrays = .ok ts) :
    Binds utc (arrays.flatMap given) (ts.flatMap JsonTest.values) := by
  induction arrays generalizing ts with
  | nil =>
    obtain rfl := Except.ok.inj h
    exact .nil
  | cons vs rest ih =>
    obtain ⟨ps, hps, hrest⟩ := bind_eq_ok.mp h
    rw [List.flatMap_cons]
    split_ifs at hrest with hempty
    · -- A sub-array of which nothing was given makes no test.
      have hnone : Binds utc (given vs) [] :=
        .of_parameters hps (List.nil_sublist ps)
      exact hnone.append (ih hrest)
    · obtain ⟨t, ht, hmore⟩ := bind_eq_ok.mp hrest
      obtain ⟨ts, hts, rfl⟩ := functor_map_eq_ok.mp hmore
      rw [List.flatMap_cons]
      exact (Binds.of_parameters hps (containing_sublist ht)).append (ih hts)

/-- Whether there are one or several tests, the atom has their values. -/
theorem values_ofTests (c : ColumnRef) (ts : List JsonTest) :
    (Atom.ofTests c ts).values = ts.flatMap JsonTest.values := by
  match ts with
  | [] => rfl
  | [t] => exact (List.append_nil t.values).symm
  | t :: u :: rest => rfl

/-- The values of a JSON test are bound to what its operand supplies. -/
theorem inJsonAtom_binds {operand : Value} {a : Atom} (h : inJsonAtom d utc c operand = .ok a) :
    Binds utc (suppliedByInJson operand) a.values := by
  rw [inJsonAtom_elements] at h
  unfold suppliedByInJson elements
  generalize (sequence? operand).getD [operand] = vs at h ⊢
  dsimp only
  by_cases harrays : vs ≠ [] ∧ ∀ v ∈ vs, (sequence? v).isSome
  · rw [inJsonAtom_arrays harrays] at h
    obtain ⟨ts, hts, rfl⟩ := map_eq_ok.mp h
    rw [if_pos harrays, values_ofTests]
    exact containmentTests_binds hts
  · rw [inJsonAtom_mixed harrays] at h
    rw [if_neg harrays]
    split_ifs at h with hempty
    · obtain rfl := Except.ok.inj h
      rw [List.isEmpty_iff.mp hempty]
      exact .nil
    · obtain ⟨ps, hps, rfl⟩ := map_eq_ok.mp h
      exact .of_mapM hps

/-- The text for a pattern is bound to the pattern and the operand. -/
theorem binds_likeTexts {pattern operand : Value} {text : String}
    (h : likeOperand operand pattern = .ok text) :
    Binds utc (likeTexts pattern operand) [.text text] := by
  rw [likeTexts, h]
  exact .of_parameter rfl

/-- The values of tests for paths are bound to the paths and their patterns. -/
theorem pathTests_binds {pattern : Value} {fields : Record} {ts : List JsonTest}
    (h : pathTests pattern fields = .ok ts) :
    Binds utc ((fields.filter fun f => !isVoid f.2).flatMap fun f =>
      .text ("$." ++ f.1) :: likeTexts pattern f.2) (ts.flatMap JsonTest.values) := by
  induction fields generalizing ts with
  | nil =>
    obtain rfl := Except.ok.inj h
    exact .nil
  | cons entry rest ih =>
    obtain ⟨key, operand⟩ := entry
    unfold pathTests at h
    cases hvoid : isVoid operand with
    | true => simpa [hvoid] using ih (by simpa [hvoid] using h)
    | false =>
      obtain ⟨text, htext, ts, hts, rfl⟩ : ∃ text, likeOperand operand pattern = .ok text ∧
          ∃ ts', pathTests pattern rest = .ok ts' ∧
            .pathLike (.text ("$." ++ key)) (.text text) :: ts' = ts := by simpa [hvoid] using h
      have hpath : Binds utc [.text ("$." ++ key)] [.text ("$." ++ key)] := .of_parameter rfl
      simpa [hvoid, JsonTest.values] using
        hpath.append ((binds_likeTexts htext).append (ih hts))

/-- The values of an atom for a pattern are bound to what its operand supplies. -/
theorem likeAtom_binds {operand pattern : Value} {x : Option Atom}
    (h : likeAtom c operand pattern = .ok x) :
    Binds utc (suppliedByLike operand pattern) (x.elim [] Atom.values) := by
  unfold likeAtom at h
  unfold suppliedByLike
  split_ifs at h ⊢ with hvoid
  · obtain rfl := Except.ok.inj h
    exact .nil
  · cases operand with
    | record fields =>
      obtain ⟨ts, hts, rfl⟩ := functor_map_eq_ok.mp h
      cases ts with
      | nil => exact pathTests_binds hts
      | cons t ts => exact pathTests_binds hts
    | _ =>
      obtain ⟨text, htext, rfl⟩ := functor_map_eq_ok.mp h
      exact binds_likeTexts htext

/-- The values of an atom are bound to what the operand of its operator supplies. -/
theorem operandAtom_binds {op : Operator} {operand pattern : Value} {x : Option Atom}
    (h : operandAtom d utc c op operand pattern = .ok x) :
    Binds utc (suppliedByOperand op operand pattern) (x.elim [] Atom.values) := by
  by_cases hgiven : operand ≠ .unset ∧ operand ≠ .null
  · rw [operandAtom_given hgiven] at h
    rw [suppliedByOperand_given hgiven]
    cases op with
    | compare comparison =>
      obtain ⟨p, hp, rfl⟩ := map_eq_ok.mp h
      exact .of_parameter hp
    | like => exact likeAtom_binds h
    | oneOf =>
      obtain ⟨a, ha, rfl⟩ := map_eq_ok.mp h
      exact oneOfAtom_binds ha
    | inJson =>
      obtain ⟨a, ha, rfl⟩ := map_eq_ok.mp h
      exact inJsonAtom_binds ha
  · cases operand with
    | unset =>
      obtain rfl := Except.ok.inj h
      exact .nil
    | null =>
      obtain rfl := Except.ok.inj h
      cases op with
      | compare comparison => cases comparison <;> exact .nil
      | _ => exact .nil
    | _ => exact absurd (by simp) hgiven

/-! ## What a condition binds -/

section Conditions

variable {owner : Value}

/-- The values of an atom are bound to what its entry supplies. -/
theorem entryAtom_binds {key : String} {value : Value} {x : Option Atom}
    (h : entryAtom d owner utc key value = .ok x) :
    Binds utc (suppliedBy value) (x.elim [] Atom.values) := by
  cases value with
  | unset =>
    obtain rfl := Except.ok.inj h
    exact .nil
  | null =>
    obtain ⟨c, -, hatom⟩ := bind_eq_ok.mp h
    obtain rfl := pure_eq_ok.mp hatom
    exact .nil
  | list vs =>
    rw [entryAtom_list] at h
    obtain ⟨c, -, hatom⟩ := bind_eq_ok.mp h
    obtain ⟨a, ha, rfl⟩ := map_eq_ok.mp hatom
    exact oneOfAtom_binds ha
  | tuple vs =>
    rw [entryAtom_sequence rfl, entryAtom_list] at h
    obtain ⟨c, -, hatom⟩ := bind_eq_ok.mp h
    obtain ⟨a, ha, rfl⟩ := map_eq_ok.mp hatom
    exact oneOfAtom_binds ha
  | record fields =>
    unfold suppliedBy
    dsimp only
    cases hop : operatorOf? fields with
    | some op =>
      rw [entryAtom_record hop] at h
      obtain ⟨c, -, hatom⟩ := bind_eq_ok.mp h
      exact operandAtom_binds hatom
    | none =>
      -- A record that names no operator is compared with as a whole.
      have hnone := get?_operator_of_ok hop h
      obtain ⟨c, -, hatom⟩ := bind_eq_ok.mp h
      dsimp only at hatom
      rw [hnone] at hatom
      obtain ⟨p, hp, hx⟩ := bind_eq_ok.mp hatom
      obtain rfl := pure_eq_ok.mp hx
      exact .of_parameter hp
  | _ =>
    obtain ⟨c, -, hatom⟩ := bind_eq_ok.mp h
    obtain ⟨p, hp, hx⟩ := bind_eq_ok.mp hatom
    obtain rfl := pure_eq_ok.mp hx
    exact .of_parameter hp

/-- The values of all atoms are bound to what the entries supply. -/
theorem entryAtoms_binds {fields : Record} {as : List Atom}
    (h : entryAtoms d owner utc fields = .ok as) :
    Binds utc (fields.flatMap fun e => suppliedBy e.2) (as.flatMap Atom.values) := by
  induction fields generalizing as with
  | nil =>
    obtain rfl := Except.ok.inj h
    exact .nil
  | cons entry rest ih =>
    obtain ⟨key, value⟩ := entry
    obtain ⟨x, hx, hrest⟩ := bind_eq_ok.mp h
    have hfirst := entryAtom_binds hx
    rw [List.flatMap_cons]
    cases x with
    | none => exact hfirst.append (ih hrest)
    | some a =>
      obtain ⟨as, has, rfl⟩ := functor_map_eq_ok.mp hrest
      rw [List.flatMap_cons]
      exact hfirst.append (ih has)

/-- The values of all groups are bound to what the groups supply. -/
theorem compileGroups_binds {groups : List Value} {gs : List (List Atom)}
    (h : Filter.compileGroups d owner utc groups = .ok gs) :
    Binds utc (suppliedIn groups) (gs.flatten.flatMap Atom.values) := by
  induction groups generalizing gs with
  | nil =>
    obtain rfl := Except.ok.inj h
    exact .nil
  | cons group rest ih =>
    obtain ⟨fields, hfields, hatoms⟩ := bind_eq_ok.mp h
    obtain ⟨as, has, hothers⟩ := bind_eq_ok.mp hatoms
    obtain ⟨others, hrest, hgs⟩ := bind_eq_ok.mp hothers
    obtain rfl := pure_eq_ok.mp hgs
    obtain rfl := (groupOf_erase hfields).1
    have hboth := (entryAtoms_binds has).append (ih hrest)
    cases as with
    | nil => exact hboth
    | cons a as => simpa [suppliedIn] using hboth

/-- The parameters of a compiled condition are the encodings of what the condition and its groups
supply. -/
theorem compile_binds {query : Value} {groups : List Value} {f : Filter}
    (h : Filter.compile d owner utc query groups = .ok f) :
    Binds utc (suppliedIn (query :: groups)) (Fragment.params (f.fragment d)) := by
  obtain ⟨fields, hfields, hcompiled⟩ := bind_eq_ok.mp h
  obtain ⟨main, hmain, hrest⟩ := bind_eq_ok.mp hcompiled
  obtain ⟨compiled, hgroups, rfl⟩ := functor_map_eq_ok.mp hrest
  obtain rfl := (conditionOf_erase hfields).1
  rw [Filter.params_eq, Filter.atoms, List.flatMap_append]
  exact (entryAtoms_binds hmain).append (compileGroups_binds hgroups)

end Conditions

end Sql

end Quarry
