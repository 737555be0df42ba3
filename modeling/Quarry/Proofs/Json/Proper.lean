import Quarry.Proofs.Json.Reading
import Quarry.Proofs.Json.Texts

/-!
# Proper JSON values

JSON text may give an object the same name twice and may have numbers beyond all finite ones. What
is read has no such name twice, and its numbers are numbers: none of them is undefined but the one
that has a name in JSON text.
-/

set_option autoImplicit false

namespace Quarry

open Number (Binary64)

/-! ## Proper values -/

namespace Json

section

variable {τ : Type} [DecidableEq τ]

mutual

/-- Whether the names in every object are distinct and every number is one, or the constant. -/
def isProper : Json τ → Bool
  | .real x => decide (x ≠ .nan false)
  | .array items => areProper items
  | .object fields => decide (fields.map (·.1)).Nodup && fieldsAreProper fields
  | _ => true

/-- Whether items are proper. -/
def areProper : List (Json τ) → Bool
  | [] => true
  | v :: vs => isProper v && areProper vs

/-- Whether the values of fields are proper. -/
def fieldsAreProper : List (τ × Json τ) → Bool
  | [] => true
  | (_, v) :: rest => isProper v && fieldsAreProper rest

end

/-- Items are proper if each of them is. -/
theorem areProper_iff (vs : List (Json τ)) : areProper vs = true ↔ ∀ v ∈ vs, v.isProper = true := by
  induction vs with
  | nil => simp [areProper]
  | cons v vs ih => simp [areProper, ih]

/-- Fields are proper if their values are. -/
theorem fieldsAreProper_iff (fields : List (τ × Json τ)) :
    fieldsAreProper fields = true ↔ ∀ f ∈ fields, f.2.isProper = true := by
  induction fields with
  | nil => simp [fieldsAreProper]
  | cons f rest ih => simp [fieldsAreProper, ih]

end

mutual

/-- A value is proper if its tree is. -/
theorem isProper_of_tree : ∀ j : Json String, j.tree.isProper = true → j.isProper = true
  | .null, _ | .bool _, _ | .int _, _ | .text _, _ => rfl
  | .real _, h => h
  | .array items, h => by
    rw [tree_array, isProper] at h
    exact areProper_of_tree items h
  | .object fields, h => by
    simp only [tree_object, isProper, Bool.and_eq_true, decide_eq_true_eq, List.map_map] at h ⊢
    exact ⟨.of_map (fun s => glyphs s.toList) (by rw [List.map_map]; exact h.1),
      fieldsAreProper_of_tree fields h.2⟩

/-- Items are proper if their trees are. -/
theorem areProper_of_tree : ∀ js : List (Json String), areProper (js.map tree) = true → areProper js = true
  | [], _ => rfl
  | j :: js, h => by
    simp only [List.map_cons, areProper, Bool.and_eq_true] at h ⊢
    exact ⟨isProper_of_tree j h.1, areProper_of_tree js h.2⟩

/-- Fields are proper if their trees are. -/
theorem fieldsAreProper_of_tree : ∀ fs : List (String × Json String),
    fieldsAreProper (fs.map fun f => (glyphs f.1.toList, f.2.tree)) = true → fieldsAreProper fs = true
  | [], _ => rfl
  | (_, j) :: fs, h => by
    simp only [List.map_cons, fieldsAreProper, Bool.and_eq_true] at h ⊢
    exact ⟨isProper_of_tree j h.1, fieldsAreProper_of_tree fs h.2⟩

end

end Json

/-! ## Numbers -/

namespace Number.Binary64

/-- No fraction is undefined. -/
theorem ofFraction_ne_nan (negative : Bool) (num den : Nat) :
    ofFraction negative num den ≠ .nan false := by
  -- one definition opened at a time, as the powers must not be computed
  unfold ofFraction
  split
  · simp [zero]
  · extract_lets e
    split
    extract_lets m
    split
    split
    · simp
    · simp

/-- No number in scientific notation is undefined. -/
theorem ofScientific_ne_nan (negative : Bool) (coefficient : Nat) (exponent : Int) :
    ofScientific negative coefficient exponent ≠ .nan false := by
  unfold ofScientific
  dsimp only
  split_ifs
  · simp [zero]
  · simp
  · simp [zero]
  · exact ofFraction_ne_nan _ _ _

end Number.Binary64

namespace Json

/-- What is read as a number is proper. -/
theorem isProper_readNumber? {negative : Bool} {gs rest : List Glyph} {j : Tree}
    (h : readNumber? negative gs = some (j, rest)) : j.isProper = true := by
  obtain ⟨⟨whole, rest'⟩, -, hnumber⟩ := Option.bind_eq_some_iff.mp h
  dsimp only at hnumber
  split_ifs at hnumber
  · obtain ⟨rfl, -⟩ := Prod.mk.inj (Option.some.inj hnumber)
    rfl
  · obtain ⟨rfl, -⟩ := Prod.mk.inj (Option.some.inj hnumber)
    simp [isProper, Binary64.ofScientific_ne_nan]

/-- What is read as a scalar is proper. -/
theorem isProper_readScalar? {gs rest : List Glyph} {j : Tree}
    (h : readScalar? gs = some (j, rest)) : j.isProper = true := by
  have hword (w : List Char) (v : Tree) (hv : v.isProper = true)
      (hread : (takeWord? w gs).map (v, ·) = some (j, rest)) : j.isProper = true := by
    obtain ⟨behind, -, heq⟩ := Option.map_eq_some_iff.mp hread
    obtain ⟨rfl, -⟩ := Prod.mk.inj heq
    exact hv
  unfold readScalar? at h
  split at h
  · exact hword _ _ rfl h
  · exact hword _ _ rfl h
  · exact hword _ _ rfl h
  · exact hword _ _ rfl h
  · exact hword _ _ rfl h
  · exact hword _ _ rfl h
  · exact isProper_readNumber? h
  · exact isProper_readNumber? h

/-! ## Reading -/

/-- What is read is proper. -/
theorem readable_isProper : Readable fun _ j => j.isProper = true where
  text _ _ := rfl
  scalar := isProper_readScalar?
  array h := (areProper_iff _).mpr h
  object hnodup h := by simp [isProper, hnodup, (fieldsAreProper_iff _).mpr h]

/-- What is read from JSON text is proper. -/
theorem isProper_read [Limits] {gs : List Glyph} {j : Tree} (h : read gs = .ok j) :
    j.isProper = true := readable_isProper.of_read h

end Json

end Quarry
