import Mathlib.Data.List.Basic
/-!
# Lists with a least distance

A spaced list is increasing, and its elements keep at least a given distance. An enumeration of such
a list that stopped after one element resumes from a cursor one distance behind it.
-/

namespace Vmctx.Order

open List

def Spaced (step : Nat) (l : List Nat) : Prop := l.Pairwise (fun a b => a + step ≤ b)

variable {step : Nat} {l front back : List Nat} {last : Nat}

theorem Spaced.increasing (positive : 0 < step) (spaced : Spaced step l) : l.Pairwise (· < ·) :=
  List.Pairwise.imp (fun apart => by omega) spaced

theorem Spaced.filter_after (positive : 0 < step) (spaced : Spaced step (front ++ last :: back)) :
    (front ++ last :: back).filter (fun p => last + step ≤ p) = back := by
  obtain ⟨_, behind, across⟩ := pairwise_append.mp spaced
  have before : ∀ p ∈ front, ¬decide (last + step ≤ p) = true := by
    intro p mem
    have apart := across p mem last mem_cons_self
    rw [decide_eq_true_eq]
    omega
  have after : ∀ p ∈ back, decide (last + step ≤ p) = true := by
    intro p mem
    exact decide_eq_true ((pairwise_cons.mp behind).1 p mem)
  have self : ¬decide (last + step ≤ last) = true := by
    rw [decide_eq_true_eq]
    omega
  rw [filter_append, filter_eq_nil_iff.mpr before, nil_append,
    filter_cons, if_neg self, filter_eq_self.mpr after]

theorem Spaced.length_mul_le {low high : Nat} (ordered : low ≤ high) (spaced : Spaced step l)
    (extent : ∀ p ∈ l, low ≤ p ∧ p + step ≤ high) : low + l.length * step ≤ high := by
  induction l generalizing low with
  | nil =>
    rw [length_nil]
    omega
  | cons p rest ih =>
    obtain ⟨behind, later⟩ := pairwise_cons.mp spaced
    have first := extent p mem_cons_self
    have length := ih first.2 later fun q mem =>
      ⟨behind q mem, (extent q (mem_cons_of_mem p mem)).2⟩
    rw [length_cons, Nat.succ_mul]
    omega

end Vmctx.Order
