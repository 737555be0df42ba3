import Mathlib.Data.List.Forall2
import Quarry.Act

/-!
# Laws of outcomes

What is known about the steps of a computation when the whole of it has succeeded: a first step that
succeeded and a second one that succeeded with its result, or a result for each member of a list.
-/

set_option autoImplicit false

namespace Quarry

variable {α β ε : Type}

/-- Two steps succeed if the first does, and the second with its result. -/
@[simp] theorem bind_eq_ok {x : Except ε α} {f : α → Except ε β} {b : β} :
    (x >>= f) = .ok b ↔ ∃ a, x = .ok a ∧ f a = .ok b := by
  cases x with
  | error e => simp [bind, Except.bind]
  | ok a => simp [bind, Except.bind]

/-- Two steps succeed if it is known what the first one gives. -/
theorem exists_bind_eq_ok {x : Except ε α} {f : α → Except ε β} {a : α} (hx : x = .ok a)
    (hf : ∃ b, f a = .ok b) : ∃ b, (x >>= f) = .ok b := by
  rw [hx]
  exact hf

/-- A result succeeds with itself. -/
@[simp] theorem pure_eq_ok {a b : α} : (pure a : Except ε α) = .ok b ↔ a = b := by
  simp [pure, Except.pure]

/-- A changed result comes from a result. -/
@[simp] theorem map_eq_ok {x : Except ε α} {f : α → β} {b : β} :
    x.map f = .ok b ↔ ∃ a, x = .ok a ∧ f a = b := by
  cases x <;> simp [Except.map]

/-- A changed result comes from a result, in the functor's words. -/
@[simp] theorem functor_map_eq_ok {x : Except ε α} {f : α → β} {b : β} :
    f <$> x = .ok b ↔ ∃ a, x = .ok a ∧ f a = b := map_eq_ok

/-- Every member of a list has its result. -/
theorem mapM_eq_ok_iff {f : α → Except Error β} {xs : List α} {ys : List β} :
    xs.mapM f = .ok ys ↔ List.Forall₂ (fun x y => f x = .ok y) xs ys := by
  induction xs generalizing ys with
  | nil => cases ys <;> simp
  | cons x xs ih =>
    rw [List.mapM_cons]
    constructor
    · intro h
      obtain ⟨y, hy, rest, hrest, rfl⟩ : ∃ y, f x = .ok y ∧ ∃ rest, xs.mapM f = .ok rest ∧
          y :: rest = ys := by simpa using h
      exact .cons hy (ih.mp hrest)
    · intro h
      cases h with
      | cons hy hrest => simp [hy, ih.mpr hrest]

/-- A list has results exactly if its members have related ones. -/
theorem mapM_eq_ok_iff_of_mem {f : α → Except Error β} {R : α → β → Prop} {xs : List α} {ys : List β}
    (h : ∀ x ∈ xs, ∀ y, f x = .ok y ↔ R x y) : xs.mapM f = .ok ys ↔ List.Forall₂ R xs ys := by
  rw [mapM_eq_ok_iff]
  induction xs generalizing ys with
  | nil => simp
  | cons x rest ih =>
    obtain ⟨hx, hrest⟩ := List.forall_mem_cons.mp h
    cases ys with
    | nil => simp
    | cons y ys => rw [List.forall₂_cons, List.forall₂_cons, hx y, ih hrest]

/-- A list has results if each member has one. -/
theorem exists_mapM_eq_ok {f : α → Except Error β} {xs : List α} (h : ∀ x ∈ xs, ∃ y, f x = .ok y) :
    ∃ ys, xs.mapM f = .ok ys := by
  induction xs with
  | nil => exact ⟨[], rfl⟩
  | cons x rest ih =>
    obtain ⟨⟨y, hy⟩, hrest⟩ := List.forall_mem_cons.mp h
    obtain ⟨ys, hys⟩ := ih hrest
    exact ⟨y :: ys, by simp [List.mapM_cons, hy, hys]⟩

/-- What is done with each result may be done with all of them together. -/
theorem mapM_map_eq {γ : Type} (f : α → Except ε β) (g : β → γ) (xs : List α) :
    xs.mapM (fun x => (f x).map g) = (xs.mapM f).map (List.map g) := by
  induction xs with
  | nil => rfl
  | cons x rest ih =>
    rw [List.mapM_cons, List.mapM_cons, ih]
    cases f x with
    | error e => rfl
    | ok y => cases rest.mapM f <;> rfl

/-- Steps that keep up what they need to succeed all succeed. -/
theorem exists_foldlM_eq_ok {f : β → α → Except Error β} {p : β → Prop}
    (h : ∀ y x, p y → ∃ z, f y x = .ok z ∧ p z) (xs : List α) {y : β} (hy : p y) :
    ∃ z, xs.foldlM f y = .ok z ∧ p z := by
  induction xs generalizing y with
  | nil => exact ⟨y, rfl, hy⟩
  | cons x rest ih =>
    obtain ⟨next, hnext, hp⟩ := h y x hy
    obtain ⟨z, hz, hpz⟩ := ih hp
    exact ⟨z, by rw [List.foldlM_cons, hnext]; exact hz, hpz⟩

/-- Relations of members compose. -/
theorem forall₂_trans {γ : Type} {R : α → β → Prop} {S : β → γ → Prop} {T : α → γ → Prop} {xs : List α}
    {ys : List β} {zs : List γ} (h : ∀ x y z, R x y → S y z → T x z) (hR : List.Forall₂ R xs ys)
    (hS : List.Forall₂ S ys zs) : List.Forall₂ T xs zs := by
  induction hR generalizing zs with
  | nil =>
    cases hS
    exact .nil
  | cons hxy _ ih =>
    cases hS with
    | cons hyz hrest => exact .cons (h _ _ _ hxy hyz) (ih hrest)

/-- There are as many results as members. -/
theorem length_of_mapM_eq_ok {f : α → Except Error β} {xs : List α} {ys : List β}
    (h : xs.mapM f = .ok ys) : ys.length = xs.length :=
  (mapM_eq_ok_iff.mp h).length_eq.symm

/-- The results of a traversal are those of its members. -/
theorem mem_iff_of_mapM_eq_ok {f : α → Except Error β} {xs : List α} {ys : List β}
    (h : xs.mapM f = .ok ys) {y : β} : y ∈ ys ↔ ∃ x ∈ xs, f x = .ok y := by
  have hall := mapM_eq_ok_iff.mp h
  clear h
  induction hall with
  | nil => simp
  | cons hfirst hrest ih => simp [List.mem_cons, ih, hfirst, eq_comm (a := y)]

/-- Where every member can only have one result, a traversal that succeeds has these. -/
theorem eq_map_of_mapM_eq_ok {f : α → Except Error β} {g : α → β} {xs : List α} {ys : List β}
    (h : xs.mapM f = .ok ys) (hg : ∀ x ∈ xs, ∀ y, f x = .ok y → y = g x) : ys = xs.map g := by
  have hall := mapM_eq_ok_iff.mp h
  clear h
  induction hall with
  | nil => rfl
  | cons hy _ ih =>
    obtain ⟨hx, hrest⟩ := List.forall_mem_cons.mp hg
    rw [List.map_cons, hx _ hy, ih hrest]

/-- Each member of a related list has a partner. -/
theorem exists_of_forall₂ {R : α → β → Prop} {xs : List α} {ys : List β} (h : List.Forall₂ R xs ys) :
    ∀ x ∈ xs, ∃ y ∈ ys, R x y := by
  induction h with
  | nil => exact nofun
  | cons hfirst _ ih =>
    refine List.forall_mem_cons.mpr ⟨⟨_, List.mem_cons_self, hfirst⟩, fun x hx => ?_⟩
    obtain ⟨y, hy, hR⟩ := ih x hx
    exact ⟨y, List.mem_cons_of_mem _ hy, hR⟩

/-- Each member has a result among all. -/
theorem exists_of_mapM_eq_ok {f : α → Except Error β} {xs : List α} {ys : List β}
    (h : xs.mapM f = .ok ys) {x : α} (hx : x ∈ xs) : ∃ y, y ∈ ys ∧ f x = .ok y :=
  exists_of_forall₂ (mapM_eq_ok_iff.mp h) x hx

/-- What traversals of related lists give has something in common if related members do. -/
theorem map_eq_of_mapM_eq_ok {γ : Type} {f : α → Except Error β} {g : β → γ} {R : α → α → Prop}
    {xs xs' : List α} {ys ys' : List β} (h : List.Forall₂ R xs xs')
    (hg : ∀ x x' y y', R x x' → f x = .ok y → f x' = .ok y' → g y = g y')
    (hys : xs.mapM f = .ok ys) (hys' : xs'.mapM f = .ok ys') : ys.map g = ys'.map g := by
  have hall := mapM_eq_ok_iff.mp hys
  have hall' := mapM_eq_ok_iff.mp hys'
  clear hys hys'
  induction h generalizing ys ys' with
  | nil =>
    cases hall
    cases hall'
    rfl
  | cons hfirst _ ih =>
    cases hall with
    | cons hy hrest =>
      cases hall' with
      | cons hy' hrest' =>
        rw [List.map_cons, List.map_cons, hg _ _ _ _ hfirst hy hy', ih hrest hrest']

/-- Two acts succeed one after the other if both do. -/
theorem Act.runOn_bind_eq_ok_iff {σ : Type} {a : Act σ α} {f : α → Act σ β} {s : σ} {y : β} :
    ((a >>= f).runOn s).1 = .ok y ↔ ∃ x t, a.runOn s = (.ok x, t) ∧ ((f x).runOn t).1 = .ok y := by
  cases ha : a.runOn s with
  | mk r t =>
    cases r with
    | error e => simp [Act.runOn_bind_error ha]
    | ok x => simp [Act.runOn_bind_ok ha]

end Quarry
