import Quarry.Text.Cut

/-!
# Cuts of joined texts

Where a text made of a front, a character and a rest is cut at that character. The first cut is at
the front's end if the character is not in the front. The last cut is at the front's end or within
the rest, and which of them depends on the rest alone, whatever the front is. A text without the
character is not cut.
-/

set_option autoImplicit false

namespace Quarry.Text

/-- A text is cut at the first of its separators. -/
theorem cutFirst_append {c : Char} {front : List Char} (hfront : c ∉ front) (rest : List Char) :
    cutFirst c (front ++ c :: rest) = some (front, rest) := by
  induction front with
  | nil => simp [cutFirst]
  | cons d front ih =>
    obtain ⟨hd, hrest⟩ := not_or.mp (mt List.mem_cons.mpr hfront)
    rw [List.cons_append, cutFirst, if_neg (Ne.symm hd), ih hrest]
    rfl

/-- What stands before the first separator. -/
theorem beforeFirst_append {c : Char} {front : List Char} (hfront : c ∉ front) (rest : List Char) :
    beforeFirst c (front ++ c :: rest) = front := by
  rw [beforeFirst, cutFirst_append hfront]

/-- A text without the separator is not cut. -/
theorem cutFirst_of_not_mem {c : Char} {cs : List Char} (h : c ∉ cs) : cutFirst c cs = none := by
  induction cs with
  | nil => rfl
  | cons d cs ih =>
    obtain ⟨hd, hcs⟩ := not_or.mp (mt List.mem_cons.mpr h)
    rw [cutFirst, if_neg (Ne.symm hd), ih hcs]
    rfl

/-- A text without the separator stands before it as a whole. -/
theorem beforeFirst_of_not_mem {c : Char} {cs : List Char} (h : c ∉ cs) : beforeFirst c cs = cs := by
  rw [beforeFirst, cutFirst_of_not_mem h]

/-- A text without the separator is not cut at the last one. -/
theorem cutLast_of_not_mem {c : Char} {cs : List Char} (h : c ∉ cs) : cutLast c cs = none := by
  induction cs with
  | nil => rfl
  | cons d cs ih =>
    obtain ⟨hd, hcs⟩ := not_or.mp (mt List.mem_cons.mpr h)
    rw [cutLast, ih hcs]
    exact if_neg (Ne.symm hd)

/-- A text that follows a `c`, cut at the last `c`: what of it still goes to the front, and what is
left. -/
def lastParts (c : Char) (rest : List Char) : List Char × List Char :=
  match cutLast c rest with
  | some (a, b) => (c :: a, b)
  | none => ([], rest)

/-- The last cut behind a front is where the rest says, for every front. -/
theorem cutLast_append (c : Char) (front rest : List Char) :
    cutLast c (front ++ c :: rest)
      = some (front ++ (lastParts c rest).1, (lastParts c rest).2) := by
  induction front with
  | nil =>
    rw [List.nil_append, cutLast, lastParts]
    cases cutLast c rest with
    | none => simp
    | some parts => rfl
  | cons d front ih =>
    rw [List.cons_append, cutLast, ih]
    rfl

/-- Where a character is found, there is a last place where it is found. -/
theorem exists_last {c : Char} {cs : List Char} (h : c ∈ cs) :
    ∃ front rest, cs = front ++ c :: rest ∧ c ∉ rest := by
  obtain ⟨front, rest, hsplit, hnot⟩ := List.eq_append_cons_of_mem (List.mem_reverse.mpr h)
  refine ⟨rest.reverse, front.reverse, ?_, mt List.mem_reverse.mp hnot⟩
  rw [← List.reverse_reverse cs, hsplit]
  simp

end Quarry.Text
