import Mathlib.Data.List.Count
/-!
# Counting around one element of a list

What replacing or dropping the element at a position does to a count and to the others.
-/

namespace Vmctx.System

variable {α : Type} {l : List α} {i : Nat} {a : α}

theorem around (here : l[i]? = some a) :
    ∃ before after, l = before ++ a :: after ∧ (∀ b, l.set i b = before ++ b :: after) ∧
      l.eraseIdx i = before ++ after := by
  obtain ⟨bound, rfl⟩ := List.getElem?_eq_some_iff.mp here
  refine ⟨l.take i, l.drop (i + 1), ?_, fun b => ?_, List.eraseIdx_eq_take_drop_succ ..⟩
  · exact (List.take_append_drop i l).symm.trans (by rw [List.drop_eq_getElem_cons bound])
  · exact (List.set_eq_take_append_cons_drop ..).trans (if_pos bound)

theorem countP_eraseIdx (p : α → Bool) (here : l[i]? = some a) :
    (l.eraseIdx i).countP p + (if p a then 1 else 0) = l.countP p := by
  obtain ⟨before, after, all, -, erased⟩ := around here
  rw [erased, all]
  simp only [List.countP_append, List.countP_cons]
  omega

theorem countP_set (p : α → Bool) (here : l[i]? = some a) (b : α) :
    (l.set i b).countP p + (if p a then 1 else 0) = l.countP p + (if p b then 1 else 0) := by
  obtain ⟨before, after, all, replaced, -⟩ := around here
  rw [replaced, all]
  simp only [List.countP_append, List.countP_cons]
  omega

/-- Replacing one element leaves every other in the list. -/
theorem mem_set_of_ne {b x : α} (here : l[i]? = some a) (present : x ∈ l) (other : x ≠ a) :
    x ∈ l.set i b := by
  obtain ⟨before, after, all, replaced, -⟩ := around here
  rw [all, List.mem_append, List.mem_cons] at present
  rw [replaced, List.mem_append, List.mem_cons]
  exact present.imp_right fun m => .inr (m.resolve_left other)

theorem mem_set_self (here : l[i]? = some a) (b : α) : b ∈ l.set i b :=
  List.mem_set (List.getElem?_eq_some_iff.mp here).1 b

end Vmctx.System
