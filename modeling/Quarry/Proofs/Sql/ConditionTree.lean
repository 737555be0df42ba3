import Quarry.Proofs.Outcome
import Quarry.Proofs.Sql.FilterText

/-!
# Trees of conditions

What a condition says is defined here on the condition itself, entry by entry and without any text:
an entry is dropped or says one thing about the column that its key denotes. Compiling a condition
gives a filter that says the same, and the text of the filter is read back as that tree. The key of
an entry has no other part in it than to denote the column.
-/

set_option autoImplicit false

namespace Quarry.Sql

open Grammar (Condition)

variable {d : Dialect}

/-- The values among some that were given. -/
def given (vs : List Value) : List Value := vs.filter fun v => !v.isUnset

/-- The column that a key denotes: one of its own table if it has one, else one of the table at hand
if there is one. -/
def ColumnRef.denoted (owner : Value) (key : String) : ColumnRef :=
  match ofKey key, owner with
  | .plain c, .text table => if table.isEmpty then .plain c else .qualified table c
  | ref, _ => ref

/-! ## What an entry says -/

namespace Grammar.Condition

/-- A column is one of the given values, which it never is when there are none. -/
def oneOfGiven (c : ColumnRef) (vs : List Value) : Condition :=
  match (given vs).length with
  | 0 => .never
  | n => .oneOf (.column c) (List.replicate n .slot)

/-- The number of values that a containment test asks for. SQLite counts equal ones once. -/
def containedSize (d : Dialect) (utc : Bool) (vs : List Value) : Nat :=
  match d with
  | .mysql => (given vs).length
  | .sqlite =>
    match Value.parameters utc vs with
    | .ok params => (Value.distinctFrom [] params).length
    | .error _ => 0

/-- One of several conditions, which no row satisfies when there are none. -/
def someOf : List Condition → Condition
  | [] => .never
  | cs => .anyOf cs

/-- A column's array contains one of the sub-arrays that have given values. -/
def containsOneOf (d : Dialect) (utc : Bool) (c : ColumnRef) (arrays : List (List Value)) :
    Condition :=
  .someOf ((arrays.filter fun vs => !(given vs).isEmpty).map fun vs =>
    JsonTest.containsCondition d c (containedSize d utc vs))

/-- A column's array shares one of the values, which may stand in sub-arrays. -/
def sharesOneOf (d : Dialect) (c : ColumnRef) (vs : List Value) : Condition :=
  match (vs.flatMap fun v => (sequence? v).getD (given [v])).length with
  | 0 => .never
  | n => JsonTest.overlapsCondition d c n

/-- IN_JSON: containment when all elements of the operand are sub-arrays, overlap otherwise. -/
def inJson (d : Dialect) (utc : Bool) (c : ColumnRef) (operand : Value) : Condition :=
  let vs := (sequence? operand).getD [operand]
  if vs ≠ [] ∧ ∀ v ∈ vs, (sequence? v).isSome then containsOneOf d utc c (vs.filterMap sequence?)
  else sharesOneOf d c vs

/-- LIKE: a pattern for the column, or for one of several paths in it. -/
def like? (d : Dialect) (c : ColumnRef) (operand : Value) : Option Condition :=
  if isVoid operand then none
  else
    match operand with
    | .record fields =>
      match fields.filter fun f => !isVoid f.2 with
      | [] => none
      | paths => some (.anyOf (paths.map fun _ => JsonTest.pathCondition d c))
    | _ => some (.like (.column c) .slot)

/-- An operator with its operand, none if the entry is dropped. -/
def ofOperator? (d : Dialect) (utc : Bool) (c : ColumnRef) (op : Operator) (operand : Value) :
    Option Condition :=
  match operand, op with
  | .unset, _ => none
  | .null, .compare .equal => some (.isNull (.column c))
  | .null, .compare .notEqual => some (.isNotNull (.column c))
  | .null, .compare .different => some (.isNotNull (.column c))
  | .null, _ => none
  | _, .compare comparison => some (.compare (.column c) comparison .slot)
  | _, .oneOf => some (oneOfGiven c (operandItems operand))
  | _, .inJson => some (inJson d utc c operand)
  | _, .like => like? d c operand

/-- An entry of a condition, none if it is dropped. -/
def ofField? (d : Dialect) (owner : Value) (utc : Bool) (entry : String × Value) :
    Option Condition :=
  let c := ColumnRef.denoted owner entry.1
  match entry.2 with
  | .unset => none
  | .null => some (.isNull (.column c))
  | .list vs => some (oneOfGiven c vs)
  | .tuple vs => some (oneOfGiven c vs)
  | .record fields =>
    match Record.get? "operator" fields with
    | some operator =>
      (Operator.ofName? (String.ofList (Text.upper operator.display.toList))).bind fun op =>
        ofOperator? d utc c op (Record.getD "value" fields)
    | none => some (.compare (.column c) .equal .slot)
  | _ => some (.compare (.column c) .equal .slot)

/-- The entries of a condition that are kept. -/
def entries (d : Dialect) (owner : Value) (utc : Bool) (query : Value) : List Condition :=
  match query with
  | .record fields => fields.filterMap (ofField? d owner utc)
  | _ => []

/-- A condition with its OR-groups, of which those without kept entries are left out. -/
def ofQuery (d : Dialect) (owner : Value) (utc : Bool) (query : Value) (groups : List Value) :
    Option Condition :=
  ofSides (entries d owner utc query)
    ((groups.map (entries d owner utc)).filter fun g => !g.isEmpty)

end Grammar.Condition

/-! ## What its atom says -/

/-- An atom that has the values it needs and says a condition. -/
structure Atom.Means (d : Dialect) (a : Atom) (c : Condition) : Prop where
  proper : a.IsProper
  condition : a.condition d = c

/-- A column of a key is the one that the key denotes. -/
theorem ColumnRef.within_eq_ok {owner : Value} {key : String} {c : ColumnRef}
    (h : (ofKey key).within owner = .ok c) : denoted owner key = c := by
  unfold denoted
  cases hkey : ofKey key with
  | plain name =>
    by_cases howner : owner.isTrue = true
    · obtain ⟨table, htable, rfl⟩ : ∃ table, identifier owner = .ok table ∧
          .qualified table name = c := by simpa [hkey, within, howner] using h
      obtain rfl := identifier_eq_ok htable
      have hne : table ≠ "" := by simpa [Value.isTrue] using howner
      simp [hne]
    · obtain rfl : .plain name = c := by simpa [hkey, within, howner] using h
      cases owner with
      | text table =>
        have hempty : table = "" := by simpa [Value.isTrue] using howner
        simp [hempty]
      | _ => rfl
  | qualified table name => simpa [hkey, within] using h
  | star table => simpa [hkey, within] using h

/-- As many parameters as values that are given. -/
theorem length_parameters {utc : Bool} {vs params : List Value}
    (h : Value.parameters utc vs = .ok params) : params.length = (given vs).length :=
  length_of_mapM_eq_ok h

/-- The atom for one of some items means that. -/
theorem oneOfAtom_means {utc : Bool} {c : ColumnRef} {vs : List Value} {a : Atom}
    (h : oneOfAtom utc c vs = .ok a) : a.Means d (.oneOfGiven c vs) := by
  obtain ⟨params, hparams, rfl⟩ : ∃ params, Value.parameters utc vs = .ok params ∧
      (if params.isEmpty then Atom.never else .oneOf c params) = a := by
    simpa [oneOfAtom] using h
  have hlength := length_parameters hparams
  cases params with
  | nil => exact ⟨trivial, by simp [Condition.oneOfGiven, ← hlength, Atom.condition]⟩
  | cons v rest =>
    exact ⟨by simp [Atom.IsProper], by simp [Condition.oneOfGiven, ← hlength, Atom.condition]⟩

/-- A containment test of a sub-array with given values. -/
theorem containing_means {utc : Bool} {c : ColumnRef} {vs params : List Value} {t : JsonTest}
    (hparams : Value.parameters utc vs = .ok params) (hne : params ≠ [])
    (h : JsonTest.containing d params = .ok t) :
    (Atom.json c t).Means d (JsonTest.containsCondition d c (Condition.containedSize d utc vs)) := by
  have hlength := length_parameters hparams
  cases d with
  | mysql =>
    obtain rfl : .contains params = t := by simpa [JsonTest.containing] using h
    exact ⟨hne, by simp [Atom.condition, JsonTest.condition, Condition.containedSize, hlength]⟩
  | sqlite =>
    simp only [JsonTest.containing, Value.dedupe?] at h
    split_ifs at h with hfixed
    · obtain rfl : .contains (Value.distinctFrom [] params) = t := by simpa using h
      cases params with
      | nil => exact absurd rfl hne
      | cons v rest =>
        have hdistinct : Value.distinctFrom [] (v :: rest) ≠ [] := by simp [Value.distinctFrom]
        exact ⟨hdistinct, by
          simp [Atom.condition, JsonTest.condition, Condition.containedSize, hparams]⟩
    · simp [misfit] at h

/-- The containment tests of sub-arrays are those of the ones with given values. -/
theorem containmentTests_mean {utc : Bool} {c : ColumnRef} {arrays : List (List Value)}
    {ts : List JsonTest} (h : containmentTests d utc arrays = .ok ts) :
    (∀ t ∈ ts, t.IsProper) ∧ ts.map (JsonTest.condition d c) =
      (arrays.filter fun vs => !(given vs).isEmpty).map fun vs =>
        JsonTest.containsCondition d c (Condition.containedSize d utc vs) := by
  induction arrays generalizing ts with
  | nil =>
    obtain rfl : [] = ts := by simpa [containmentTests] using h
    simp
  | cons vs rest ih =>
    obtain ⟨params, hparams, hrest⟩ := bind_eq_ok.mp h
    have hlength := length_parameters hparams
    by_cases hempty : params = []
    · have hgiven : given vs = [] := by
        rw [hempty] at hlength
        exact List.length_eq_zero_iff.mp hlength.symm
      have hlater := ih (by simpa [hempty] using hrest)
      simpa [hgiven] using hlater
    · have hgiven : given vs ≠ [] := by
        intro hnil
        simp [hnil, hempty] at hlength
      obtain ⟨t, ht, later, hlater, rfl⟩ : ∃ t, JsonTest.containing d params = .ok t ∧
          ∃ later, containmentTests d utc rest = .ok later ∧ t :: later = ts := by
        simpa [hempty] using hrest
      have hfirst := containing_means (c := c) hparams hempty ht
      obtain ⟨hproper, hcondition⟩ := ih hlater
      refine ⟨?_, ?_⟩
      · simpa using ⟨hfirst.proper, hproper⟩
      · have hhead : t.condition d c = _ := hfirst.condition
        simp [hgiven, hcondition, hhead]

/-- Spreading opens the arrays and leaves the other given values. -/
theorem spread_eq (vs : List Value) :
    spread vs = vs.flatMap fun v => (sequence? v).getD (given [v]) := by
  induction vs with
  | nil => rfl
  | cons v rest ih => cases v <;> simp [spread, sequence?, given, Value.isUnset, ih]

/-- The atom of containment tests, of which there may be none or one. -/
def Atom.ofTests (c : ColumnRef) : List JsonTest → Atom
  | [] => .never
  | [t] => .json c t
  | ts => .anyJson c ts

/-- An atom of tests means that some of them hold. -/
theorem ofTests_means (c : ColumnRef) {ts : List JsonTest} (h : ∀ t ∈ ts, t.IsProper) :
    (Atom.ofTests c ts).Means d (.someOf (ts.map (JsonTest.condition d c))) := by
  match ts with
  | [] => exact ⟨trivial, rfl⟩
  | [t] => exact ⟨h t (by simp), rfl⟩
  | t :: u :: rest => exact ⟨⟨by simp, h⟩, rfl⟩

section InJson

variable {utc : Bool} {c : ColumnRef} {operand : Value} {vs : List Value}

/-- A value that is no array is as good as the array of it. -/
theorem inJsonAtom_elements :
    inJsonAtom d utc c operand = inJsonAtom d utc c (.list ((sequence? operand).getD [operand])) := by
  simp [inJsonAtom, sequence?]

/-- Sub-arrays only: containment tests. -/
theorem inJsonAtom_arrays (h : vs ≠ [] ∧ ∀ v ∈ vs, (sequence? v).isSome) :
    inJsonAtom d utc c (.list vs) =
      (containmentTests d utc (vs.filterMap sequence?)).map (Atom.ofTests c) := by
  have hlength := List.filterMap_length_eq_length.mpr h.2
  have hbranch : (!vs.isEmpty && (vs.filterMap sequence?).length == vs.length) = true := by
    simpa [hlength] using h.1
  simp only [inJsonAtom, sequence?, Option.getD_some, hbranch, if_true]
  cases containmentTests d utc (vs.filterMap sequence?) with
  | error e => rfl
  | ok ts => match ts with
    | [] => rfl
    | [t] => rfl
    | t :: u :: rest => rfl

/-- Anything else: one test whether a value is shared. -/
theorem inJsonAtom_mixed (h : ¬ (vs ≠ [] ∧ ∀ v ∈ vs, (sequence? v).isSome)) :
    inJsonAtom d utc c (.list vs) =
      if (spread vs).isEmpty then .ok .never
      else ((spread vs).mapM (Value.parameter utc)).map fun params => .json c (.overlaps params) := by
  have hall : (vs.filterMap sequence?).length = vs.length ↔ ∀ v ∈ vs, (sequence? v).isSome :=
    List.filterMap_length_eq_length
  have hbranch : (!vs.isEmpty && (vs.filterMap sequence?).length == vs.length) = false := by
    simpa [hall] using h
  simp only [inJsonAtom, sequence?, Option.getD_some, hbranch]
  cases (spread vs).mapM (Value.parameter utc) <;> rfl

/-- The atom of a JSON test means what the test does. -/
theorem inJsonAtom_means {a : Atom} (h : inJsonAtom d utc c operand = .ok a) :
    a.Means d (.inJson d utc c operand) := by
  rw [inJsonAtom_elements] at h
  unfold Condition.inJson
  generalize (sequence? operand).getD [operand] = vs at h ⊢
  by_cases harrays : vs ≠ [] ∧ ∀ v ∈ vs, (sequence? v).isSome
  · rw [inJsonAtom_arrays harrays] at h
    obtain ⟨ts, hts, rfl⟩ := map_eq_ok.mp h
    obtain ⟨hproper, hcondition⟩ := containmentTests_mean (c := c) hts
    rw [if_pos harrays, Condition.containsOneOf, ← hcondition]
    exact ofTests_means c hproper
  · rw [inJsonAtom_mixed harrays] at h
    rw [if_neg harrays, Condition.sharesOneOf, ← spread_eq]
    cases hflat : spread vs with
    | nil =>
      obtain rfl : Atom.never = a := by simpa [hflat] using h
      exact ⟨trivial, rfl⟩
    | cons v rest =>
      obtain ⟨params, hparams, rfl⟩ : ∃ params, (v :: rest).mapM (Value.parameter utc) = .ok params ∧
          .json c (.overlaps params) = a := by
        simpa [hflat] using h
      have hlength := length_of_mapM_eq_ok hparams
      have hne : params ≠ [] := by
        rintro rfl
        simp at hlength
      exact ⟨hne, by simp [Atom.condition, JsonTest.condition, hlength]⟩

end InJson

/-- The path tests of a record are those of the entries that say something. -/
theorem pathTests_mean {c : ColumnRef} {pattern : Value} {fields : List (String × Value)}
    {ts : List JsonTest} (h : pathTests pattern fields = .ok ts) :
    (∀ t ∈ ts, t.IsProper) ∧ ts.map (JsonTest.condition d c) =
      (fields.filter fun f => !isVoid f.2).map fun _ => JsonTest.pathCondition d c := by
  induction fields generalizing ts with
  | nil =>
    obtain rfl : [] = ts := by simpa [pathTests] using h
    simp
  | cons field rest ih =>
    obtain ⟨key, operand⟩ := field
    unfold pathTests at h
    by_cases hvoid : isVoid operand = true
    · have hlater := ih (by simpa [hvoid] using h)
      simpa [hvoid] using hlater
    · obtain ⟨text, -, later, hlater, rfl⟩ : ∃ text, likeOperand operand pattern = .ok text ∧
          ∃ later, pathTests pattern rest = .ok later ∧
            .pathLike (.text ("$." ++ key)) (.text text) :: later = ts := by
        simpa [hvoid] using h
      obtain ⟨hproper, hcondition⟩ := ih hlater
      refine ⟨?_, ?_⟩
      · simpa [JsonTest.IsProper] using hproper
      · simp [hvoid, hcondition, JsonTest.condition]

/-- An entry is dropped, or it has an atom that says what the entry says. -/
def Agrees (d : Dialect) (a : Option Atom) (c : Option Condition) : Prop :=
  Option.Rel (Atom.Means d) a c

/-- The atom for a pattern agrees with the tree, if there is one. -/
theorem likeAtom_agrees {c : ColumnRef} {operand pattern : Value} {a : Option Atom}
    (h : likeAtom c operand pattern = .ok a) : Agrees d a (Condition.like? d c operand) := by
  unfold likeAtom at h
  unfold Condition.like?
  by_cases hvoid : isVoid operand = true
  · obtain rfl : none = a := by simpa [hvoid] using h
    rw [if_pos hvoid]
    exact .none
  · rw [if_neg hvoid] at h ⊢
    cases operand with
    | record fields =>
      obtain ⟨ts, hts, hmatch⟩ := bind_eq_ok.mp h
      obtain ⟨hproper, hcondition⟩ := pathTests_mean (d := d) (c := c) hts
      cases hkept : fields.filter fun f => !isVoid f.2 with
      | nil =>
        obtain rfl : ts = [] := by simpa [hkept] using hcondition
        obtain rfl : none = a := by simpa using hmatch
        simp only [hkept]
        exact .none
      | cons field rest =>
        have hne : ts ≠ [] := by
          rintro rfl
          simp [hkept] at hcondition
        obtain rfl : some (.anyJson c ts) = a := by simpa [hne] using hmatch
        simp only [hkept]
        rw [hkept] at hcondition
        exact .some ⟨⟨hne, hproper⟩, by rw [Atom.condition, hcondition]⟩
    | _ =>
      obtain ⟨text, -, htext⟩ := bind_eq_ok.mp h
      obtain rfl := pure_eq_ok.mp htext
      exact .some ⟨trivial, rfl⟩

/-- The atom for a missing operand agrees with the tree. -/
theorem nullAtom_agrees {utc : Bool} (c : ColumnRef) (op : Operator) :
    Agrees d (nullAtom c op) (Condition.ofOperator? d utc c op .null) := by
  match op with
  | .compare .equal => exact .some ⟨trivial, rfl⟩
  | .compare .notEqual => exact .some ⟨trivial, rfl⟩
  | .compare .different => exact .some ⟨trivial, rfl⟩
  | .compare .greater => exact .none
  | .compare .less => exact .none
  | .compare .greaterOrEqual => exact .none
  | .compare .lessOrEqual => exact .none
  | .like => exact .none
  | .oneOf => exact .none
  | .inJson => exact .none

/-- An operator is found by the name in capital letters. -/
theorem ofValue_eq_ok {v : Value} {op : Operator} (h : Operator.ofValue v = .ok op) :
    Operator.ofName? (String.ofList (Text.upper v.display.toList)) = some op := by
  unfold Operator.ofValue at h
  split at h
  · simp_all
  · simp [refuse] at h

/-- The atom of an operator agrees with the tree for its name. -/
theorem operatorAtom_agrees {utc : Bool} {c : ColumnRef} {operator : Value} {fields : Record}
    {a : Option Atom} (h : operatorAtom d utc c operator fields = .ok a) :
    ∃ op, Operator.ofName? (String.ofList (Text.upper operator.display.toList)) = some op ∧
      Agrees d a (Condition.ofOperator? d utc c op (Record.getD "value" fields)) := by
  obtain ⟨op, hop, hrest⟩ := bind_eq_ok.mp h
  refine ⟨op, ofValue_eq_ok hop, ?_⟩
  cases hoperand : Record.getD "value" fields with
  | unset =>
    obtain rfl : none = a := by simpa [hoperand] using hrest
    cases op <;> exact .none
  | null =>
    obtain rfl : nullAtom c op = a := by simpa [hoperand] using hrest
    exact nullAtom_agrees c op
  | _ =>
    rw [hoperand] at hrest
    cases op with
    | compare comparison =>
      obtain ⟨v, -, hv⟩ := bind_eq_ok.mp hrest
      obtain rfl := pure_eq_ok.mp hv
      exact .some ⟨trivial, rfl⟩
    | oneOf =>
      obtain ⟨atom, hatom, ha⟩ := bind_eq_ok.mp hrest
      obtain rfl := pure_eq_ok.mp ha
      exact .some (oneOfAtom_means hatom)
    | inJson =>
      obtain ⟨atom, hatom, ha⟩ := bind_eq_ok.mp hrest
      obtain rfl := pure_eq_ok.mp ha
      exact .some (inJsonAtom_means hatom)
    | like => exact likeAtom_agrees hrest

/-- An entry is compiled to an atom that says what the entry says, or both say nothing. -/
theorem entryAtom_agrees {owner : Value} {utc : Bool} {key : String} {value : Value}
    {a : Option Atom} (h : entryAtom d owner utc key value = .ok a) :
    Agrees d a (Condition.ofField? d owner utc (key, value)) := by
  unfold entryAtom at h
  by_cases hunset : value.isUnset = true
  · obtain rfl : value = .unset := by cases value <;> simp_all [Value.isUnset]
    obtain rfl : none = a := by simpa [Value.isUnset] using h
    exact .none
  · rw [if_neg hunset] at h
    obtain ⟨c, hcolumn, hrest⟩ := bind_eq_ok.mp h
    obtain rfl := ColumnRef.within_eq_ok hcolumn
    cases value with
    | unset => simp [Value.isUnset] at hunset
    | null =>
      obtain rfl := pure_eq_ok.mp hrest
      exact .some ⟨trivial, rfl⟩
    | list vs =>
      obtain ⟨atom, hatom, ha⟩ := bind_eq_ok.mp hrest
      obtain rfl := pure_eq_ok.mp ha
      exact .some (oneOfAtom_means hatom)
    | tuple vs =>
      obtain ⟨atom, hatom, ha⟩ := bind_eq_ok.mp hrest
      obtain rfl := pure_eq_ok.mp ha
      exact .some (oneOfAtom_means hatom)
    | record fields =>
      simp only [Condition.ofField?]
      cases hoperator : Record.get? "operator" fields with
      | none =>
        obtain ⟨v, -, rfl⟩ : ∃ v, Value.parameter utc (.record fields) = .ok v ∧
            some (Atom.compare (ColumnRef.denoted owner key) .equal v) = a := by
          simpa [hoperator] using hrest
        exact .some ⟨trivial, rfl⟩
      | some operator =>
        obtain ⟨op, hop, hagrees⟩ := operatorAtom_agrees (by simpa [hoperator] using hrest)
        simpa [hop] using hagrees
    | _ =>
      obtain ⟨v, -, hv⟩ := bind_eq_ok.mp hrest
      obtain rfl := pure_eq_ok.mp hv
      exact .some ⟨trivial, rfl⟩

/-! ## What a filter says -/

/-- The atoms of a condition mean what its entries do. -/
theorem entryAtoms_mean {owner : Value} {utc : Bool} {fields : Record} {atoms : List Atom}
    (h : entryAtoms d owner utc fields = .ok atoms) :
    (∀ a ∈ atoms, a.IsProper) ∧
      atoms.map (Atom.condition d) = Condition.entries d owner utc (.record fields) := by
  simp only [Condition.entries]
  induction fields generalizing atoms with
  | nil =>
    obtain rfl : [] = atoms := by simpa [entryAtoms] using h
    simp
  | cons entry rest ih =>
    obtain ⟨key, value⟩ := entry
    obtain ⟨a, ha, hrest⟩ := bind_eq_ok.mp h
    have hagrees := entryAtom_agrees ha
    rw [List.filterMap_cons]
    cases hcondition : Condition.ofField? d owner utc (key, value) with
    | none =>
      rw [hcondition] at hagrees
      cases hagrees
      exact ih hrest
    | some c =>
      rw [hcondition] at hagrees
      cases hagrees with
      | some hmeans =>
        obtain ⟨later, hlater, rfl⟩ := functor_map_eq_ok.mp hrest
        obtain ⟨hproper, hmap⟩ := ih hlater
        refine ⟨?_, ?_⟩
        · simpa using ⟨hmeans.proper, hproper⟩
        · rw [List.map_cons, hmeans.condition, hmap]

/-- The entries of a condition are those of its fields. -/
theorem conditionOf_entries {owner : Value} {utc : Bool} {query : Value} {fields : Record}
    (h : Filter.conditionOf query = .ok fields) :
    Condition.entries d owner utc (.record fields) = Condition.entries d owner utc query := by
  unfold Filter.conditionOf at h
  split_ifs at h with htrue
  · cases query <;> simp_all [misfit]
  · obtain rfl : [] = fields := by simpa using h
    cases query <;> simp_all [Value.isTrue, Condition.entries]

/-- Only a record is a group. -/
theorem eq_record_of_groupOf {group : Value} {fields : Record}
    (h : Filter.groupOf group = .ok fields) : group = .record fields := by
  cases group with
  | record own => rw [Except.ok.inj h]
  | _ => simp [Filter.groupOf, misfit] at h

/-- The atoms of all groups mean what their entries do, but for empty groups. -/
theorem compileGroups_mean {owner : Value} {utc : Bool} {groups : List Value}
    {compiled : List (List Atom)} (h : Filter.compileGroups d owner utc groups = .ok compiled) :
    (∀ g ∈ compiled, g ≠ [] ∧ ∀ a ∈ g, a.IsProper) ∧
      compiled.map (List.map (Atom.condition d)) =
        (groups.map (Condition.entries d owner utc)).filter fun g => !g.isEmpty := by
  induction groups generalizing compiled with
  | nil =>
    obtain rfl : [] = compiled := by simpa [Filter.compileGroups] using h
    simp
  | cons group rest ih =>
    obtain ⟨fields, hfields, hgroup⟩ := bind_eq_ok.mp h
    obtain rfl := eq_record_of_groupOf hfields
    obtain ⟨atoms, hatoms, hrest⟩ := bind_eq_ok.mp hgroup
    obtain ⟨others, hothers, hpure⟩ := bind_eq_ok.mp hrest
    obtain ⟨hproper, hmap⟩ := entryAtoms_mean hatoms
    obtain ⟨hlater, hgroups⟩ := ih hothers
    cases atoms with
    | nil =>
      obtain rfl : others = compiled := by simpa using hpure
      refine ⟨hlater, ?_⟩
      simp [← hmap, hgroups]
    | cons a atoms =>
      obtain rfl : (a :: atoms) :: others = compiled := by simpa using hpure
      refine ⟨?_, ?_⟩
      · exact List.forall_mem_cons.mpr ⟨⟨by simp, hproper⟩, hlater⟩
      · simp [← hmap, hgroups]

/-- A compiled condition says what the condition says. -/
theorem compile_means {owner : Value} {utc : Bool} {query : Value} {groups : List Value}
    {f : Filter} (h : Filter.compile d owner utc query groups = .ok f) :
    f.IsProper ∧ f.condition d = Condition.ofQuery d owner utc query groups := by
  obtain ⟨fields, hfields, hquery⟩ := bind_eq_ok.mp h
  obtain ⟨main, hmain, hrest⟩ := bind_eq_ok.mp hquery
  obtain ⟨compiled, hgroups, rfl⟩ := functor_map_eq_ok.mp hrest
  obtain ⟨hproper, hmap⟩ := entryAtoms_mean hmain
  obtain ⟨hgroupsProper, hgroupsMap⟩ := compileGroups_mean hgroups
  rw [conditionOf_entries hfields] at hmap
  exact ⟨⟨hproper, hgroupsProper⟩, by rw [Filter.condition, hmap, hgroupsMap, Condition.ofQuery]⟩

/-- The members of a container of OR-groups. -/
def members : Value → List Value
  | .list vs => vs
  | .tuple vs => vs
  | .set vs => vs
  | _ => []

/-- Groups that are compiled are records. -/
theorem compileGroups_records {owner : Value} {utc : Bool} {groups : List Value}
    {compiled : List (List Atom)} (h : Filter.compileGroups d owner utc groups = .ok compiled) :
    ∀ g ∈ groups, ∃ fields, g = .record fields := by
  induction groups generalizing compiled with
  | nil => simp
  | cons group rest ih =>
    obtain ⟨fields, hfields, hgroup⟩ := bind_eq_ok.mp h
    obtain ⟨atoms, -, hrest⟩ := bind_eq_ok.mp hgroup
    obtain ⟨others, hothers, -⟩ := bind_eq_ok.mp hrest
    exact List.forall_mem_cons.mpr ⟨⟨fields, eq_record_of_groupOf hfields⟩, ih hothers⟩

/-- What is gone through as records are the members of a container. -/
theorem members_of_items {v : Value} {items : List Value} (h : v.items = .ok items)
    (hrecords : ∀ i ∈ items, ∃ fields, i = .record fields) : members v = items := by
  -- The items of texts, byte strings and records are no records, so there are none of them.
  have hnone : ∀ {α : Type} (xs : List α) (f : α → Value), (∀ x fields, f x ≠ .record fields) →
      xs.map f = items → [] = items := by
    intro α xs f hf hxs
    cases xs with
    | nil => exact hxs
    | cons x xs =>
      obtain ⟨fields, hx⟩ := hrecords (f x) (by simp [← hxs])
      exact absurd hx (hf x fields)
  cases v with
  | list vs => exact Except.ok.inj h
  | tuple vs => exact Except.ok.inj h
  | set vs => exact Except.ok.inj h
  | text s => exact hnone _ _ (by simp) (Except.ok.inj h)
  | bytes data => exact hnone _ _ (by simp) (Except.ok.inj h)
  | buffer data => exact hnone _ _ (by simp) (Except.ok.inj h)
  | record fields => exact hnone _ _ (by simp) (Except.ok.inj h)
  | _ => simp [Value.items, misfit] at h

/-- Groups given as a value are compiled when they are the members of a container of records. -/
theorem compile_of_ofValues {owner : Value} {utc : Bool} {query groups : Value} {f : Filter}
    (h : Filter.ofValues d owner utc query groups = .ok f) :
    Filter.compile d owner utc query (members groups) = .ok f := by
  obtain ⟨fields, hfields, hquery⟩ := bind_eq_ok.mp h
  obtain ⟨main, hmain, hrest⟩ := bind_eq_ok.mp hquery
  have hmembers : ∃ compiled, Filter.compileGroups d owner utc (members groups) = .ok compiled ∧
      Filter.mk main compiled = f := by
    by_cases htrue : groups.isTrue = true
    · rw [if_pos htrue] at hrest
      obtain ⟨items, hitems, hcompiled⟩ := bind_eq_ok.mp hrest
      obtain ⟨compiled, hgroups, hf⟩ := functor_map_eq_ok.mp hcompiled
      rw [members_of_items hitems (compileGroups_records hgroups)]
      exact ⟨compiled, hgroups, hf⟩
    · rw [if_neg htrue] at hrest
      have hnil : members groups = [] := by
        cases groups <;> first | rfl | simpa [Value.isTrue, members] using htrue
      rw [hnil]
      exact functor_map_eq_ok.mp hrest
  rw [Filter.compile, hfields]
  exact bind_eq_ok.mpr ⟨fields, rfl, bind_eq_ok.mpr ⟨main, hmain, functor_map_eq_ok.mpr hmembers⟩⟩

/-- The text of a compiled condition is read back, by the dialect's rule for quotes and the
precedence of SQL, as the tree of what its entries say: all kept entries of the main part, and one
of the groups that keep an entry as a whole. The text is empty when nothing is kept, and only
then. -/
theorem read_compiled (d : Dialect) (owner : Value) (utc : Bool) (query groups : Value) (f : Filter)
    (h : Filter.ofValues d owner utc query groups = .ok f) :
    Grammar.read d ((f.fragment d).statement d).sql =
        some (Condition.ofQuery d owner utc query (members groups)) ∧
      (((f.fragment d).statement d).sql = "" ↔
        Condition.ofQuery d owner utc query (members groups) = none) := by
  obtain ⟨hproper, hcondition⟩ := compile_means (compile_of_ofValues h)
  rw [← hcondition]
  exact ⟨Filter.read_sql hproper, Filter.sql_eq_empty_iff hproper⟩

/-- Quotes, parentheses and connectives in names are read as parts of the names. -/
theorem read_compiled_hostile_names :
    let query : Value := .record [("a\" or (\"b", .list [.int 1, .unset]),
      ("c", .record [("operator", .text "LIKE"),
        ("value", .record [("p", .text "x"), ("q", .text "y")])])]
    let groups : Value := .list [.record [("d) and (e", .null)], .record [("f", .unset)]]
    let f : Filter := ⟨[.oneOf (.qualified "t" "a\" or (\"b") [.int 1],
      .anyJson (.qualified "t" "c") [.pathLike (.text "$.p") (.text "%x%"),
        .pathLike (.text "$.q") (.text "%y%")]], [[.isNull (.qualified "t" "d) and (e")]]⟩
    let path : Condition := JsonTest.pathCondition .sqlite (.qualified "t" "c")
    Filter.ofValues .sqlite (.text "t") true query groups = .ok f ∧
      ((f.fragment .sqlite).statement .sqlite).sql = "(\"t\".\"a\"\" or (\"\"b\" IN (?) AND " ++
        "(CAST(json_extract(\"t\".\"c\", ?) AS TEXT) LIKE ? OR " ++
        "CAST(json_extract(\"t\".\"c\", ?) AS TEXT) LIKE ?)) AND " ++
        "((\"t\".\"d) and (e\" IS NULL))" ∧
      Grammar.read .sqlite ((f.fragment .sqlite).statement .sqlite).sql =
        some (some (.all [.all [.oneOf (.column (.qualified "t" "a\" or (\"b")) [.slot],
            .any [path, path]], .isNull (.column (.qualified "t" "d) and (e"))])) := by
  intro query groups f path
  have h : Filter.ofValues .sqlite (.text "t") true query groups = .ok f := rfl
  exact ⟨h, by decide +kernel, (read_compiled .sqlite (.text "t") true query groups f h).1⟩

end Quarry.Sql
