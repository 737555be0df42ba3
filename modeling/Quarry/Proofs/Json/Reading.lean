import Mathlib.Data.List.Induction
import Mathlib.Data.List.Nodup
import Quarry.Json.Reader
import Quarry.Proofs.Outcome

/-!
# What holds of all that is read

What is read from JSON text is made of texts, of values that are neither texts nor containers, and
of containers of these. A property that all of them have when they are put together in this way
holds of everything that is read. It may depend on how many containers there is room for, which is
one less for what is in a container. Of an object it is known that its names are distinct, since of
several fields of one name the last takes the place of the first.
-/

set_option autoImplicit false

namespace Quarry.Json

/-! ## Objects -/

section Fields

variable {τ α : Type} [DecidableEq τ]

/-- Setting a field adds its name if it is new. -/
theorem map_fst_setField (name : τ) (value : α) (fields : List (τ × α)) :
    (setField name value fields).map (·.1) = if name ∈ fields.map (·.1) then fields.map (·.1)
      else fields.map (·.1) ++ [name] := by
  induction fields with
  | nil => rfl
  | cons field rest ih =>
    obtain ⟨k, v⟩ := field
    by_cases hk : k = name
    · simp [setField, hk]
    · have hne : name ≠ k := Ne.symm hk
      simp only [setField, if_neg hk, List.map_cons, ih, List.mem_cons, hne, false_or]
      split_ifs <;> rfl

/-- A field of the changed object has the new value or was there before. -/
theorem mem_setField {name : τ} {value : α} {fields : List (τ × α)} {f : τ × α}
    (h : f ∈ setField name value fields) : f.2 = value ∨ f ∈ fields := by
  induction fields with
  | nil => simp_all [setField]
  | cons field rest ih =>
    obtain ⟨k, v⟩ := field
    by_cases hk : k = name
    · rw [setField, if_pos hk] at h
      obtain rfl | h := List.mem_cons.mp h
      · exact .inl rfl
      · exact .inr (List.mem_cons_of_mem _ h)
    · rw [setField, if_neg hk] at h
      obtain rfl | h := List.mem_cons.mp h
      · exact .inr List.mem_cons_self
      · exact (ih h).imp id (List.mem_cons_of_mem _)

/-- What is kept of fields are some of their values, under distinct names. -/
theorem keepLast_spec (fields : List (τ × α)) :
    ((keepLast fields).map (·.1)).Nodup ∧ ∀ f ∈ keepLast fields, ∃ g ∈ fields, g.2 = f.2 := by
  unfold keepLast
  -- From the end, since the last field is the one that is set last.
  induction fields using List.reverseRecOn with
  | nil => simp
  | append_singleton fields field ih =>
    obtain ⟨hnodup, hmem⟩ := ih
    rw [List.foldl_append, List.foldl_cons, List.foldl_nil]
    refine ⟨?_, ?_⟩
    · rw [map_fst_setField]
      split_ifs with hold
      · exact hnodup
      · rw [← List.concat_eq_append]
        exact hnodup.concat hold
    · intro f hf
      obtain hnew | hf := mem_setField hf
      · exact ⟨field, by simp, hnew.symm⟩
      · obtain ⟨g, hg, hvalue⟩ := hmem f hf
        exact ⟨g, List.mem_append_left _ hg, hvalue⟩

end Fields

/-! ## Readable properties -/

/-- A property of values that reading gives them, with room for a number of containers inside of
each other. -/
structure Readable (P : Nat → Tree → Prop) : Prop where
  text (room : Nat) (t : List Glyph) : P room (.text t)
  scalar {room : Nat} {gs rest : List Glyph} {j : Tree} :
    readScalar? gs = some (j, rest) → P room j
  array {room : Nat} {items : List Tree} : (∀ v ∈ items, P room v) → P (room + 1) (.array items)
  object {room : Nat} {fields : List (List Glyph × Tree)} :
    (fields.map (·.1)).Nodup → (∀ f ∈ fields, P room f.2) → P (room + 1) (.object fields)

variable {P : Nat → Tree → Prop} {room fuel : Nat} {gs rest : List Glyph}

/-- Of an object only the last field of each name is kept. -/
theorem Readable.kept (hP : Readable P) {fields : List (List Glyph × Tree)} (h : ∀ f ∈ fields, P room f.2) :
    P (room + 1) (.object (keepLast fields)) := by
  obtain ⟨hnodup, hmem⟩ := keepLast_spec fields
  refine hP.object hnodup fun f hf => ?_
  obtain ⟨g, hg, hvalue⟩ := hmem f hf
  exact hvalue ▸ h g hg

/-! ## Reading -/

/-- What is required is there. -/
theorem required_eq_ok {α : Type} {o : Option α} {a : α} (h : required o = .ok a) : o = some a := by
  cases o with
  | none => exact nomatch h
  | some b => rw [Except.ok.inj h]

/-- Reading with some fuel gives values, items and fields that have the property. -/
structure Reads (P : Nat → Tree → Prop) (fuel : Nat) : Prop where
  value : ∀ {room : Nat} {gs rest : List Glyph} {v : Tree},
    readValue fuel room gs = .ok (v, rest) → P room v
  items : ∀ {room : Nat} {gs rest : List Glyph} {vs : List Tree},
    readItems fuel room gs = .ok (vs, rest) → ∀ v ∈ vs, P room v
  fields : ∀ {room : Nat} {gs rest : List Glyph} {fs : List (List Glyph × Tree)},
    readFields fuel room gs = .ok (fs, rest) → ∀ f ∈ fs, P room f.2

/-- What holds of all that is readable holds of a value, if it does with less fuel. -/
theorem Readable.readValue (hP : Readable P) (ih : Reads P fuel) {v : Tree}
    (h : Json.readValue (fuel + 1) room gs = .ok (v, rest)) : P room v := by
  unfold Json.readValue at h
  split at h
  · obtain ⟨⟨t, behind⟩, -, hpure⟩ := bind_eq_ok.mp h
    obtain ⟨rfl, -⟩ := Prod.mk.inj (Except.ok.inj hpure)
    exact hP.text _ t
  · exact nomatch h
  · split at h
    · obtain ⟨rfl, -⟩ := Prod.mk.inj (Except.ok.inj h)
      exact hP.array nofun
    · obtain ⟨⟨items, behind⟩, hitems, hpure⟩ := bind_eq_ok.mp h
      obtain ⟨rfl, -⟩ := Prod.mk.inj (Except.ok.inj hpure)
      exact hP.array (ih.items hitems)
  · exact nomatch h
  · split at h
    · obtain ⟨rfl, -⟩ := Prod.mk.inj (Except.ok.inj h)
      exact hP.object List.nodup_nil nofun
    · obtain ⟨⟨fields, behind⟩, hfields, hpure⟩ := bind_eq_ok.mp h
      obtain ⟨rfl, -⟩ := Prod.mk.inj (Except.ok.inj hpure)
      exact hP.kept (ih.fields hfields)
  · exact hP.scalar (required_eq_ok h)

/-- What holds of all that is readable holds of items, if it does with less fuel. -/
theorem Reads.readItems (ih : Reads P fuel) {vs : List Tree}
    (h : Json.readItems (fuel + 1) room gs = .ok (vs, rest)) : ∀ v ∈ vs, P room v := by
  unfold Json.readItems at h
  obtain ⟨⟨v, behind⟩, hvalue, hrest⟩ := bind_eq_ok.mp h
  dsimp only at hrest
  split at hrest
  · obtain ⟨⟨later, behind'⟩, hlater, hpure⟩ := bind_eq_ok.mp hrest
    obtain ⟨rfl, -⟩ := Prod.mk.inj (Except.ok.inj hpure)
    exact List.forall_mem_cons.mpr ⟨ih.value hvalue, ih.items hlater⟩
  · obtain ⟨rfl, -⟩ := Prod.mk.inj (Except.ok.inj hrest)
    exact List.forall_mem_singleton.mpr (ih.value hvalue)
  · exact nomatch hrest

/-- What holds of all that is readable holds of fields, if it does with less fuel. -/
theorem Reads.readFields (ih : Reads P fuel) {fs : List (List Glyph × Tree)}
    (h : Json.readFields (fuel + 1) room gs = .ok (fs, rest)) : ∀ f ∈ fs, P room f.2 := by
  unfold Json.readFields at h
  split at h
  · obtain ⟨⟨k, behind⟩, -, hcolon⟩ := bind_eq_ok.mp h
    dsimp only at hcolon
    split at hcolon
    · obtain ⟨⟨v, behind'⟩, hvalue, hrest⟩ := bind_eq_ok.mp hcolon
      dsimp only at hrest
      split at hrest
      · obtain ⟨⟨later, behind''⟩, hlater, hpure⟩ := bind_eq_ok.mp hrest
        obtain ⟨rfl, -⟩ := Prod.mk.inj (Except.ok.inj hpure)
        exact List.forall_mem_cons.mpr ⟨ih.value hvalue, ih.fields hlater⟩
      · obtain ⟨rfl, -⟩ := Prod.mk.inj (Except.ok.inj hrest)
        exact List.forall_mem_singleton.mpr (ih.value hvalue)
      · exact nomatch hrest
    · exact nomatch hcolon
  · exact nomatch h

/-- What holds of all that is readable holds with any fuel. -/
theorem Readable.reads (hP : Readable P) (fuel : Nat) : Reads P fuel := by
  -- The three readers call each other, each time with less fuel.
  induction fuel with
  | zero => exact ⟨nofun, nofun, nofun⟩
  | succ fuel ih => exact ⟨hP.readValue ih, ih.readItems, ih.readFields⟩

/-- A readable property holds of what is read from JSON text. -/
theorem Readable.of_read [Limits] (hP : Readable P) {j : Tree} (h : read gs = .ok j) :
    P Limits.depth j := by
  obtain ⟨⟨v, rest⟩, hvalue, hrest⟩ := bind_eq_ok.mp h
  dsimp only at hrest
  split_ifs at hrest
  obtain rfl := Except.ok.inj hrest
  exact (hP.reads _).value hvalue

/-- What starts like a container is one. -/
theorem isContainer_readValue {c : Char} {j : Tree} (hc : c = '[' ∨ c = '\x7b')
    (h : Json.readValue (fuel + 1) room (.char c :: gs) = .ok (j, rest)) :
    j.isContainer = true := by
  cases room with
  | zero =>
    obtain rfl | rfl := hc
    · rw [Json.readValue] at h
      exact nomatch h
    · rw [Json.readValue] at h
      exact nomatch h
  | succ room =>
    obtain rfl | rfl := hc
    · rw [Json.readValue] at h
      split at h
      · obtain ⟨rfl, -⟩ := Prod.mk.inj (Except.ok.inj h)
        rfl
      · obtain ⟨⟨items, behind⟩, -, hpure⟩ := bind_eq_ok.mp h
        obtain ⟨rfl, -⟩ := Prod.mk.inj (Except.ok.inj hpure)
        rfl
    · rw [Json.readValue] at h
      split at h
      · obtain ⟨rfl, -⟩ := Prod.mk.inj (Except.ok.inj h)
        rfl
      · obtain ⟨⟨fields, behind⟩, -, hpure⟩ := bind_eq_ok.mp h
        obtain ⟨rfl, -⟩ := Prod.mk.inj (Except.ok.inj hpure)
        rfl

/-- What opens with a bracket is read as a container. -/
theorem isContainer_read [Limits] {c : Char} {gs : List Glyph} {j : Tree} (hc : c = '[' ∨ c = '\x7b')
    (h : read (.char c :: gs) = .ok j) : j.isContainer = true := by
  have hspace : skipSpace (.char c :: gs) = .char c :: gs := by
    obtain rfl | rfl := hc <;> rfl
  unfold read at h
  rw [hspace] at h
  obtain ⟨⟨v, rest⟩, hvalue, hrest⟩ := bind_eq_ok.mp h
  dsimp only at hrest
  split_ifs at hrest
  obtain rfl := Except.ok.inj hrest
  exact isContainer_readValue hc hvalue

end Quarry.Json
