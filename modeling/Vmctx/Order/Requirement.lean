import Mathlib.Order.Closure
/-!
# Meets under requirements

Elements of a meet semilattice are sets of capabilities. A requirement says that some capabilities
are kept only together with others. Imposing it keeps an element that has what is needed and meets
any other with what is left. Imposing requirements is monotone, never adds and, when a later one
keeps what an earlier one needs, idempotent. Meets after which requirements are imposed again then
give the same as one meet of everything, so that their order and repetition do not matter.
-/

namespace Vmctx.Order

variable {α : Type} [SemilatticeInf α] [DecidableLE α]

/-- Keep an element that has what is needed, and only what is left of any other. -/
def impose (need left x : α) : α := if need ≤ x then x else x ⊓ left

variable {need left x y : α}

theorem impose_le (need left x : α) : impose need left x ≤ x := by
  unfold impose
  split
  · exact le_refl x
  · exact inf_le_left

theorem impose_mono (need left : α) : Monotone (impose need left) := by
  intro x y below
  unfold impose
  by_cases has : need ≤ x
  · rw [if_pos has, if_pos (has.trans below)]
    exact below
  · rw [if_neg has]
    split
    · exact inf_le_left.trans below
    · exact inf_le_inf_right left below

theorem impose_meets (need left x : α) : need ≤ impose need left x ∨ impose need left x ≤ left := by
  unfold impose
  split
  · next has => exact .inl has
  · exact .inr inf_le_right

theorem impose_eq (meets : need ≤ x ∨ x ≤ left) : impose need left x = x := by
  unfold impose
  split
  · rfl
  · next lacks => exact inf_eq_left.mpr (meets.resolve_left lacks)

theorem impose_impose {need' left' : α} (keeps : need ≤ left') (x : α) :
    impose need left (impose need' left' (impose need left x)) =
      impose need' left' (impose need left x) := by
  apply impose_eq
  rcases impose_meets need left x with has | within
  · refine .inl ?_
    generalize impose need left x = y at has
    unfold impose
    split
    · exact has
    · exact le_inf has keeps
  · exact .inr ((impose_le need' left' _).trans within)

/-! Meets under a closure of the dual order, which is monotone, never adds and is idempotent. -/

section Fold

variable {β : Type} [SemilatticeInf β] (c : ClosureOperator βᵒᵈ)

def imposed (x : β) : β := OrderDual.ofDual (c (OrderDual.toDual x))

theorem imposed_inf_left (x y : β) : imposed c (imposed c x ⊓ y) = imposed c (x ⊓ y) :=
  congrArg OrderDual.ofDual (c.closure_sup_closure_left (OrderDual.toDual x) (OrderDual.toDual y))

theorem foldl_inf (x y : β) (list : List β) :
    list.foldl (· ⊓ ·) x ⊓ y = x ⊓ list.foldl (· ⊓ ·) y := by
  have pulls : ∀ x y : β, list.foldl (· ⊓ ·) (x ⊓ y) = x ⊓ list.foldl (· ⊓ ·) y :=
    fun _ _ => List.foldl_assoc
  rw [inf_comm, ← pulls, inf_comm y x, pulls]

theorem le_foldl_inf {z x : β} {list : List β} :
    z ≤ list.foldl (· ⊓ ·) x ↔ ∀ y ∈ x :: list, z ≤ y := by
  induction list generalizing x with
  | nil => simp
  | cons y list ih => simp [ih, and_assoc]

theorem imposed_foldl (x y : β) (list : List β) :
    imposed c (list.foldl (fun x y => imposed c (x ⊓ y)) x ⊓ y) =
      imposed c (list.foldl (· ⊓ ·) x ⊓ y) := by
  induction list generalizing x with
  | nil => rfl
  | cons z list ih =>
    rw [List.foldl_cons, List.foldl_cons, ih, foldl_inf, foldl_inf, imposed_inf_left]

end Fold

end Vmctx.Order
