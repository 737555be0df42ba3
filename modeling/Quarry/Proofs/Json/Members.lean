import Mathlib.Data.List.TakeWhile
import Quarry.Proofs.Json.Grammar
import Quarry.Proofs.Json.Reading

/-!
# One view of arrays and objects

The items of an array and the fields of an object are read alike: something in front of a value, the
value, and then a comma with more of them or the bracket that closes all. `readMembers` is both,
with nothing in front of the values of an array. Here is what it does in one step, and what reading
a value does that starts with a quote, with a bracket or with something else.
-/

set_option autoImplicit false

namespace Quarry.Json

variable {room fuel : Nat} {object : Bool} {gs front rest tail later : List Glyph} {name : List Glyph}
  {v : Tree}

/-! ## Space -/

/-- What is skipped at the front is space. -/
theorem exists_spacing (gs : List Glyph) : ∃ space, IsSpacing space ∧ gs = space ++ skipSpace gs :=
  ⟨gs.takeWhile fun g => g.any isSpace, fun g hg => List.all_eq_true.mp List.all_takeWhile g hg,
    List.takeWhile_append_dropWhile.symm⟩

/-- Space is skipped with what follows it. -/
theorem IsSpacing.skipSpace_append (h : IsSpacing front) (tail : List Glyph) :
    skipSpace (front ++ tail) = skipSpace tail := List.dropWhile_append_of_pos h

/-! ## Members -/

/-- What stands in front of the value of a member, up to which the space has been skipped. -/
def takeLead? (object : Bool) (gs : List Glyph) : Option (List Glyph × List Glyph) :=
  if object then
    match gs with
    | .char '"' :: rest => do
      let (t, rest) ← readText? rest
      match skipSpace rest with
      | .char ':' :: rest => some (t, skipSpace rest)
      | _ => none
    | _ => none
  else some ([], gs)

/-- The members of an array or, with `object`, of an object up to the bracket that closes it. -/
def readMembers (object : Bool) (fuel room : Nat) (gs : List Glyph) :
    Except Unread (List (List Glyph × Tree) × List Glyph) :=
  if object then readFields fuel room gs
  else (readItems fuel room gs).map fun (vs, rest) => (vs.map ([], ·), rest)

/-- In an array nothing leads to a value. -/
theorem takeLead?_false : takeLead? false gs = some (name, rest) ↔ name = [] ∧ rest = gs := by
  simp [takeLead?, eq_comm]

/-- In an object a name and a colon lead to a value. -/
theorem takeLead?_true : takeLead? true gs = some (name, rest) ↔
    ∃ t behind back later, gs = .char '"' :: behind ∧ readText? behind = some (t, back) ∧
      skipSpace back = .char ':' :: later ∧ name = t ∧ rest = skipSpace later := by
  constructor
  · intro h
    simp only [takeLead?, if_true] at h
    split at h
    · obtain ⟨⟨t, back⟩, htext, hcolon⟩ := Option.bind_eq_some_iff.mp h
      dsimp only at hcolon
      split at hcolon
      · obtain ⟨rfl, rfl⟩ := Prod.mk.inj (Option.some.inj hcolon)
        exact ⟨t, _, back, _, rfl, htext, ‹_›, rfl, rfl⟩
      · exact nomatch hcolon
    · exact nomatch h
  · rintro ⟨t, behind, back, later, rfl, htext, hcolon, rfl, rfl⟩
    simp [takeLead?, htext, hcolon]

/-- The last member is followed by the closing bracket. -/
theorem readMembers_last (hlead : takeLead? object gs = some (name, front))
    (hvalue : readValue fuel room front = .ok (v, tail)) (hend : skipSpace tail = closing object :: rest) :
    readMembers object (fuel + 1) room gs = .ok ([(name, v)], rest) := by
  cases object with
  | false =>
    obtain ⟨rfl, rfl⟩ := takeLead?_false.mp hlead
    simp only [closing, Bool.false_eq_true, if_false] at hend
    simp [readMembers, readItems, hvalue, hend]
  | true =>
    obtain ⟨t, behind, back, later, rfl, htext, hcolon, rfl, rfl⟩ := takeLead?_true.mp hlead
    simp only [closing, if_true] at hend
    simp [readMembers, readFields, htext, hcolon, required, hvalue, hend]

/-- A member that is followed by a comma is one of more. -/
theorem readMembers_more (hlead : takeLead? object gs = some (name, front))
    (hvalue : readValue fuel room front = .ok (v, tail)) (hend : skipSpace tail = .char ',' :: later) :
    readMembers object (fuel + 1) room gs =
      (readMembers object fuel room (skipSpace later)).map fun (members, r) => ((name, v) :: members, r) := by
  cases object with
  | false =>
    obtain ⟨rfl, rfl⟩ := takeLead?_false.mp hlead
    simp only [readMembers, readItems, hvalue, hend, bind, Except.bind, Bool.false_eq_true, if_false]
    cases readItems fuel room (skipSpace later) <;> rfl
  | true =>
    obtain ⟨t, behind, back, later', rfl, htext, hcolon, rfl, rfl⟩ := takeLead?_true.mp hlead
    simp only [readMembers, readFields, htext, hcolon, required, hvalue, hend, bind, Except.bind, if_true]
    cases readFields fuel room (skipSpace later) <;> rfl

/-- A member whose value cannot be read cannot be read. -/
theorem readMembers_error {e : Unread} (hlead : takeLead? object gs = some (name, front))
    (hvalue : readValue fuel room front = .error e) :
    readMembers object (fuel + 1) room gs = .error e := by
  cases object with
  | false =>
    obtain ⟨rfl, rfl⟩ := takeLead?_false.mp hlead
    simp only [readMembers, readItems, hvalue]
    rfl
  | true =>
    obtain ⟨t, behind, back, later', rfl, htext, hcolon, rfl, rfl⟩ := takeLead?_true.mp hlead
    simp only [readMembers, readFields, htext, hcolon, required, hvalue, bind, Except.bind, if_true]

/-- A member that is followed by neither mark is malformed. -/
theorem readMembers_unclosed (hlead : takeLead? object gs = some (name, front))
    (hvalue : readValue fuel room front = .ok (v, tail))
    (hcomma : ∀ later, skipSpace tail ≠ .char ',' :: later)
    (hend : ∀ rest, skipSpace tail ≠ closing object :: rest) :
    readMembers object (fuel + 1) room gs = .error .malformed := by
  cases object with
  | false =>
    obtain ⟨rfl, rfl⟩ := takeLead?_false.mp hlead
    simp only [closing, Bool.false_eq_true, if_false] at hend
    simp only [readMembers, readItems, hvalue, bind, Except.bind, Bool.false_eq_true, if_false]
    rfl
  | true =>
    obtain ⟨t, behind, back, later', rfl, htext, hcolon, rfl, rfl⟩ := takeLead?_true.mp hlead
    simp only [closing, if_true] at hend
    simp only [readMembers, readFields, htext, hcolon, required, hvalue, bind, Except.bind, if_true]

/-- A member without a name is malformed in an object. -/
theorem readMembers_unled (hlead : takeLead? object gs = none) :
    readMembers object (fuel + 1) room gs = .error .malformed := by
  cases object with
  | false => exact nomatch hlead
  | true =>
    simp only [takeLead?, if_true] at hlead
    simp only [readMembers, if_true]
    rw [readFields.eq_def]
    dsimp only
    split
    · cases htext : readText? _ with
      | none => rfl
      | some p =>
        simp only [htext, bind, Option.bind] at hlead
        simp only [required, bind, Except.bind]
        split
        · rename_i hcolon
          simp [hcolon] at hlead
        · rfl
    · rfl

/-! ## Values -/

/-- What opens with a quotation mark is read as a text. -/
theorem readValue_quoted : readValue (fuel + 1) room (.char '"' :: gs) =
    (required (readText? gs)).map fun (t, r) => (.text t, r) := by
  rw [readValue]
  cases required (readText? gs) <;> rfl

/-- Without room no container is read. -/
theorem readValue_zero : readValue (fuel + 1) 0 (opening object :: gs) = .error (.tooDeep object) := by
  cases object <;> simp [opening, readValue]

/-- A container that is closed at once is empty. -/
theorem readValue_closed (h : skipSpace gs = closing object :: rest) :
    readValue (fuel + 1) (room + 1) (opening object :: gs) = .ok (container object [], rest) := by
  cases object with
  | false =>
    simp only [closing, Bool.false_eq_true, if_false] at h
    simp [opening, readValue, h, container]
  | true =>
    simp only [closing, if_true] at h
    simp [opening, readValue, h, container, keepLast]

/-- A container that is not closed at once has members. -/
theorem readValue_members (h : ∀ rest, skipSpace gs ≠ closing object :: rest) :
    readValue (fuel + 1) (room + 1) (opening object :: gs) =
      (readMembers object fuel room (skipSpace gs)).map fun (members, r) =>
        (container object members, r) := by
  cases object with
  | false =>
    simp only [closing, Bool.false_eq_true, if_false] at h
    simp only [opening, readValue, readMembers, Bool.false_eq_true, if_false, bind, Except.bind]
    cases readItems fuel room (skipSpace gs) with
    | error e => rfl
    | ok p => simp [Except.map, container, Function.comp_def, pure, Except.pure]
  | true =>
    simp only [closing, if_true] at h
    simp only [opening, readValue, readMembers, if_true, bind, Except.bind]
    cases readFields fuel room (skipSpace gs) <;> rfl

/-- What opens with no bracket and no quotation mark is read as a scalar. -/
theorem readValue_other (hquote : ∀ tail, gs ≠ .char '"' :: tail)
    (hopen : ∀ object tail, gs ≠ opening object :: tail) :
    readValue (fuel + 1) room gs = required (readScalar? gs) := by
  unfold readValue
  split
  · exact absurd rfl (hquote _)
  · exact absurd rfl (hopen false _)
  · exact absurd rfl (hopen false _)
  · exact absurd rfl (hopen true _)
  · exact absurd rfl (hopen true _)
  · rfl

/-- A scalar is read as a value. -/
theorem readValue_scalar {j : Tree} (h : readScalar? gs = some (j, rest)) :
    readValue (fuel + 1) room gs = .ok (j, rest) := by
  unfold readValue
  split
  · exact nomatch h
  · exact nomatch h
  · exact nomatch h
  · exact nomatch h
  · exact nomatch h
  · rw [h]
    rfl

end Quarry.Json
