import Mathlib.Data.List.Induction
import Mathlib.Data.List.Nodup
import Quarry.Value.Basic

/-!
# Laws of records

What a record holds after a name was set, what two records hold together, and which names there are.
-/

set_option autoImplicit false

namespace Quarry.Record

variable {name other : String} {r front : Record}

/-- Setting a name in an empty record. -/
theorem set_nil (name : String) (v : Value) : set name v [] = [(name, v)] := rfl

/-- Setting a name changes its field or goes on. -/
theorem set_cons (name : String) (v : Value) (field : String × Value) (rest : Record) :
    set name v (field :: rest) =
      if field.1 = name then (field.1, v) :: rest else field :: set name v rest := rfl

/-- A name is looked up in the first field, or else in the others. -/
theorem get?_cons (name : String) (field : String × Value) (rest : Record) :
    get? name (field :: rest) = if field.1 = name then some field.2 else get? name rest := rfl

/-! ## Names -/

/-- The names go field by field. -/
@[simp] theorem names_cons (field : String × Value) (r : Record) :
    names (field :: r) = field.1 :: names r := rfl

/-- The names of two parts. -/
@[simp] theorem names_append (front back : Record) :
    names (front ++ back) = names front ++ names back := List.map_append

/-- Setting a name adds it if it is new. -/
theorem names_set (name : String) (v : Value) (r : Record) :
    names (set name v r) = if name ∈ names r then names r else names r ++ [name] := by
  induction r with
  | nil => rfl
  | cons field rest ih =>
    by_cases hk : field.1 = name
    · simp [set_cons, hk]
    · have hne : name ≠ field.1 := Ne.symm hk
      simp only [set_cons, if_neg hk, names_cons, ih, List.mem_cons, hne, false_or]
      split_ifs <;> rfl

/-! ## Values of names -/

/-- What was set is found. -/
theorem get?_set_self (name : String) (v : Value) (r : Record) :
    get? name (set name v r) = some v := by
  induction r with
  | nil => simp [set_nil, get?_cons]
  | cons field rest ih =>
    by_cases hk : field.1 = name
    · simp [set_cons, get?_cons, hk]
    · simp [set_cons, get?_cons, hk, ih]

/-- Setting a name leaves the others. -/
theorem get?_set_of_ne (h : other ≠ name) (v : Value) (r : Record) :
    get? other (set name v r) = get? other r := by
  induction r with
  | nil => simp [set_nil, get?_cons, Ne.symm h]
  | cons field rest ih =>
    by_cases hk : field.1 = name
    · simp [set_cons, get?_cons, hk, Ne.symm h]
    · simp [set_cons, get?_cons, hk, ih]

/-- Of two values set one after the other the second holds. -/
theorem set_set (name : String) (v w : Value) (r : Record) : set name v (set name w r) = set name v r := by
  induction r with
  | nil => simp [set_nil, set_cons]
  | cons field rest ih =>
    by_cases hk : field.1 = name
    · simp [set_cons, hk]
    · simp [set_cons, hk, ih]

/-- Two names may be set in any order if the first one is there already. -/
theorem set_comm (hne : name ≠ other) (hname : name ∈ names r) (v w : Value) :
    set name v (set other w r) = set other w (set name v r) := by
  induction r with
  | nil => exact absurd hname List.not_mem_nil
  | cons field rest ih =>
    by_cases hk : field.1 = name
    · have hother : field.1 ≠ other := hk ▸ hne
      simp [set_cons, hk, hne]
    · have hrest : name ∈ names rest := by simpa [Ne.symm hk] using hname
      by_cases hother : field.1 = other
      · simp [set_cons, hother, Ne.symm hne]
      · simp [set_cons, hk, hother, ih hrest]

/-- A field of the changed record has the new value or was there before. -/
theorem mem_set {v : Value} {f : String × Value} (h : f ∈ set name v r) : f.2 = v ∨ f ∈ r := by
  induction r with
  | nil =>
    obtain rfl := List.mem_singleton.mp h
    exact .inl rfl
  | cons field rest ih =>
    unfold set at h
    split_ifs at h
    · obtain rfl | hf := List.mem_cons.mp h
      · exact .inl rfl
      · exact .inr (List.mem_cons_of_mem _ hf)
    · obtain rfl | hf := List.mem_cons.mp h
      · exact .inr List.mem_cons_self
      · exact (ih hf).imp_right (List.mem_cons_of_mem _)

/-- What all values have in common that are set is common to the values of the record. -/
theorem forall_mem_ofList {p : Value → Prop} {fields : List (String × Value)} (h : ∀ f ∈ fields, p f.2) :
    ∀ f ∈ ofList fields, p f.2 := by
  have hfold : ∀ start : Record, (∀ f ∈ start, p f.2) →
      ∀ f ∈ fields.foldl (fun r f => set f.1 f.2 r) start, p f.2 := by
    induction fields with
    | nil => exact fun start hstart => hstart
    | cons field rest ih =>
      obtain ⟨hfield, hrest⟩ := List.forall_mem_cons.mp h
      intro start hstart
      refine ih hrest _ fun f hf => ?_
      obtain hf | hf := mem_set hf
      · rwa [hf]
      · exact hstart f hf
  exact hfold [] nofun

/-- Of the values that are set under a name the last one holds. -/
theorem get?_ofList_append (before : List (String × Value)) {later : List (String × Value)} {v : Value}
    (hname : name ∈ later.map Prod.fst) (hv : ∀ f ∈ later, f.1 = name → f.2 = v) :
    get? name (ofList (before ++ later)) = some v := by
  rw [ofList, List.foldl_append]
  generalize before.foldl (fun r f => set f.1 f.2 r) [] = start
  induction later using List.reverseRecOn with
  | nil => exact absurd hname List.not_mem_nil
  | append_singleton init f ih =>
    rw [List.foldl_append]
    show get? name (set f.1 f.2 _) = some v
    by_cases hf : f.1 = name
    · rw [hf, get?_set_self, hv f (by simp) hf]
    · rw [get?_set_of_ne (Ne.symm hf)]
      have hinit : name ∈ init.map Prod.fst := by simpa [Ne.symm hf] using hname
      apply ih hinit
      intro g hg
      exact hv g (List.mem_append_left _ hg)

/-- A name is looked up in the first part, or else in the second. -/
theorem get?_append (name : String) (front back : Record) :
    get? name (front ++ back) = (get? name front).or (get? name back) := by
  induction front with
  | nil => rfl
  | cons field front ih =>
    by_cases hk : field.1 = name
    · simp [get?_cons, hk]
    · simp [get?_cons, hk, ih]

/-- A name that is not there has no value. -/
theorem get?_eq_none (h : name ∉ names r) : get? name r = none := by
  induction r with
  | nil => rfl
  | cons field rest ih =>
    obtain ⟨hk, hrest⟩ : name ≠ field.1 ∧ name ∉ names rest := by simpa using h
    simp [get?_cons, Ne.symm hk, ih hrest]

/-- A name that is there has a value. -/
theorem exists_of_mem_names (h : name ∈ names r) : ∃ v, get? name r = some v ∧ (name, v) ∈ r := by
  induction r with
  | nil => exact absurd h List.not_mem_nil
  | cons field rest ih =>
    obtain ⟨k, v⟩ := field
    by_cases hk : k = name
    · exact ⟨v, by simp [get?_cons, hk], by simp [hk]⟩
    · have hrest : name ∈ names rest := by simpa [Ne.symm hk] using h
      obtain ⟨w, hget, hmem⟩ := ih hrest
      exact ⟨w, by simp [get?_cons, hk, hget], List.mem_cons_of_mem _ hmem⟩

/-- What is found is there. -/
theorem mem_of_get? {v : Value} (h : get? name r = some v) : (name, v) ∈ r := by
  by_cases hname : name ∈ names r
  · obtain ⟨w, hw, hmem⟩ := exists_of_mem_names hname
    obtain rfl := Option.some.inj (hw.symm.trans h)
    exact hmem
  · rw [get?_eq_none hname] at h
    exact nomatch h

/-- To set a name to what it has changes nothing. -/
theorem set_of_get? {v : Value} (h : get? name r = some v) : set name v r = r := by
  induction r with
  | nil => exact nomatch h
  | cons field rest ih =>
    obtain ⟨k, w⟩ := field
    by_cases hk : k = name
    · have hw : w = v := by simpa [get?_cons, hk] using h
      simp [set_cons, hk, hw]
    · have hrest : get? name rest = some v := by simpa [get?_cons, hk] using h
      simp [set_cons, hk, ih hrest]

/-- The value of a name that only one field has. -/
theorem get?_of_mem {field : String × Value} (hnodup : (names r).Nodup) (h : field ∈ r) :
    get? field.1 r = some field.2 := by
  induction r with
  | nil => exact absurd h List.not_mem_nil
  | cons first rest ih =>
    rw [names_cons, List.nodup_cons] at hnodup
    obtain rfl | h := List.mem_cons.mp h
    · simp [get?_cons]
    · have hne : first.1 ≠ field.1 := fun heq => hnodup.1 (heq ▸ List.mem_map_of_mem h)
      simp [get?_cons, hne, ih hnodup.2 h]

/-- A name behind others is set in its place. -/
theorem set_append (h : name ∉ names front) (v : Value) (back : Record) :
    set name v (front ++ back) = front ++ set name v back := by
  induction front with
  | nil => rfl
  | cons field front ih =>
    obtain ⟨hk, hfront⟩ : name ≠ field.1 ∧ name ∉ names front := by simpa using h
    simp [set_cons, Ne.symm hk, ih hfront]

end Quarry.Record
