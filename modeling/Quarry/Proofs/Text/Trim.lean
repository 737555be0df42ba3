import Mathlib.Data.List.TakeWhile
import Quarry.Text.Blank

/-!
# Trimming

What is put around items and would be dropped there does not show once they are trimmed.
-/

set_option autoImplicit false

namespace Quarry.Text

variable {α : Type} {drops : α → Bool} {front items back : List α}

/-- Items that are dropped in front of others or behind them do not matter. -/
theorem trimBy_surrounded (hfront : ∀ a ∈ front, drops a = true) (hback : ∀ a ∈ back, drops a = true) :
    trimBy drops (front ++ items ++ back) = trimBy drops items := by
  have hreverse : ∀ a ∈ back.reverse, drops a = true := fun a ha => hback a (List.mem_reverse.mp ha)
  unfold trimBy
  rw [List.append_assoc, List.dropWhile_append_of_pos hfront, List.dropWhile_append]
  split_ifs with hempty
  · rw [List.isEmpty_iff.mp hempty, List.dropWhile_eq_nil_iff.mpr hback]
  · rw [List.reverse_append, List.dropWhile_append_of_pos hreverse]

/-- What is left does not start with anything that is dropped. -/
theorem drops_head?_trimBy {a : α} (h : (trimBy drops items).head? = some a) : drops a = false := by
  obtain ⟨rest, hrest⟩ : trimBy drops items <+: items.dropWhile drops := by
    have hsuffix := List.dropWhile_suffix (l := (items.dropWhile drops).reverse) drops
    simpa [trimBy] using List.reverse_prefix.mpr hsuffix
  have hhead : (items.dropWhile drops).head? = some a := by
    rw [← hrest, List.head?_append, h]
    rfl
  simpa [hhead] using List.head?_dropWhile_not drops items

/-- What starts and ends with items that are not dropped stays as it is. -/
theorem trimBy_eq_self {first last : α} (hfirst : drops first = false) (hlast : drops last = false)
    (hstart : items = first :: back) (hend : items = front ++ [last]) : trimBy drops items = items := by
  rw [trimBy, hstart, List.dropWhile_cons_of_neg (by simp [hfirst]), ← hstart, hend,
    List.reverse_append, List.reverse_singleton, List.singleton_append,
    List.dropWhile_cons_of_neg (by simp [hlast])]
  simp

end Quarry.Text
