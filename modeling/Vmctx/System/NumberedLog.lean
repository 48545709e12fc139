import Mathlib.Data.List.Basic
/-!
# Numbered logs

A log whose entries carry strictly increasing numbers, not necessarily consecutive ones. A cursor is
a number: `through c` is what the cursor has passed and `after c` what lies ahead of it. A reader
that takes a batch from the front of what lies ahead and moves its cursor to the batch's last number
has passed exactly what it had passed before followed by the batch.
-/

namespace Vmctx.System.NumberedLog

variable {α : Type} (num : α → Nat) {l : List α} {c d : Nat}

def Ascending (l : List α) : Prop := l.Pairwise fun e f => num e < num f

def through (c : Nat) (l : List α) : List α := l.filter fun e => num e ≤ c

def after (c : Nat) (l : List α) : List α := l.filter fun e => c < num e

/-- The number of a batch's last entry; an empty batch leaves the cursor where it is. -/
def last (c : Nat) (batch : List α) : Nat := batch.foldl (fun _ e => num e) c

variable {num}

@[simp] theorem mem_through {e : α} : e ∈ through num c l ↔ e ∈ l ∧ num e ≤ c := by
  simp [through]

@[simp] theorem mem_after {e : α} : e ∈ after num c l ↔ e ∈ l ∧ c < num e := by
  simp [after]

@[simp] theorem last_concat (batch : List α) (e : α) : last num c (batch ++ [e]) = num e := by
  simp [last]

section

variable (ascending : Ascending num l)
include ascending

theorem Ascending.concat {e : α} (newest : ∀ f ∈ l, num f < num e) : Ascending num (l ++ [e]) := by
  refine List.pairwise_append.mpr ⟨ascending, List.pairwise_singleton _ _, ?_⟩
  intro f inside g last
  rw [List.mem_singleton.mp last]
  exact newest f inside

theorem Ascending.after : Ascending num (after num c l) :=
  ascending.filter _

theorem Ascending.through_append_after : through num c l ++ NumberedLog.after num c l = l := by
  induction l with
  | nil => rfl
  | cons e rest ih =>
    obtain ⟨least, ascending⟩ := List.pairwise_cons.mp ascending
    by_cases passed : num e ≤ c
    · have split := ih ascending
      simp only [through, NumberedLog.after] at split ⊢
      rw [List.filter_cons_of_pos (by simpa using passed),
        List.filter_cons_of_neg (by simpa using passed), List.cons_append, split]
    · -- Everything behind an entry that lies ahead lies ahead too.
      have none : through num c rest = [] := by
        refine List.filter_eq_nil_iff.mpr fun f inside => ?_
        have := least f inside
        simp only [decide_eq_true_eq]
        omega
      have all : NumberedLog.after num c rest = rest := by
        refine List.filter_eq_self.mpr fun f inside => ?_
        have := least f inside
        simp only [decide_eq_true_eq]
        omega
      simp only [through, NumberedLog.after] at none all ⊢
      rw [List.filter_cons_of_neg (by simpa using passed),
        List.filter_cons_of_pos (by simpa using passed), none, all, List.nil_append]

theorem Ascending.through_prefix : through num c l <+: l :=
  ⟨_, ascending.through_append_after⟩

end

theorem through_concat {e : α} (newer : c < num e) :
    through num c (l ++ [e]) = through num c l := by
  rw [through, List.filter_append, List.filter_cons_of_neg (by simpa using newer)]
  simp [through]

theorem after_concat {e : α} (newer : c < num e) :
    after num c (l ++ [e]) = after num c l ++ [e] := by
  rw [after, List.filter_append, List.filter_cons_of_pos (by simpa using newer)]
  simp [after]

theorem after_after (later : c ≤ d) : after num d (after num c l) = after num d l := by
  rw [after, after, List.filter_filter]
  refine List.filter_congr fun e _ => ?_
  rw [← Bool.decide_and, decide_eq_decide]
  omega

theorem Ascending.dropWhile_passed (ascending : Ascending num l) :
    l.dropWhile (fun e => num e ≤ c) = NumberedLog.after num c l := by
  induction l with
  | nil => rfl
  | cons e rest ih =>
    obtain ⟨least, ascending⟩ := List.pairwise_cons.mp ascending
    by_cases passed : num e ≤ c
    · rw [List.dropWhile_cons_of_pos (by simpa using passed), ih ascending, NumberedLog.after,
        NumberedLog.after, List.filter_cons_of_neg (by simpa using passed)]
    · rw [List.dropWhile_cons_of_neg (by simpa using passed)]
      refine (List.filter_eq_self.mpr fun f inside => ?_).symm
      rcases List.mem_cons.mp inside with rfl | inside
      · simpa using passed
      · have := least f inside
        simp only [decide_eq_true_eq]
        omega

theorem Ascending.through_last (ascending : Ascending num l) {batch : List α}
    (front : batch <+: NumberedLog.after num c l) :
    through num (last num c batch) l = through num c l ++ batch := by
  obtain ⟨rest, ahead⟩ := front
  rcases List.eq_nil_or_concat batch with rfl | ⟨earlier, e, rfl⟩
  · simp [last]
  rw [List.concat_eq_append] at ahead ⊢
  rw [last_concat]
  have order : Ascending num (earlier ++ [e] ++ rest) := ahead ▸ ascending.after
  have apart := List.pairwise_append.mp order
  have inside := List.pairwise_append.mp apart.1
  have beyond : c < num e := by
    have member : e ∈ NumberedLog.after num c l := by
      rw [← ahead]
      simp
    exact (mem_after.mp member).2
  -- The log is what was passed, the batch and the rest; only the rest is beyond the last number.
  have passed : through num (num e) (through num c l) = through num c l := by
    refine List.filter_eq_self.mpr fun f member => ?_
    have := (mem_through.mp member).2
    simp only [decide_eq_true_eq]
    omega
  have taken : through num (num e) (earlier ++ [e]) = earlier ++ [e] := by
    refine List.filter_eq_self.mpr fun f member => ?_
    simp only [decide_eq_true_eq]
    rcases List.mem_append.mp member with member | member
    · exact Nat.le_of_lt (inside.2.2 f member e (by simp))
    · exact Nat.le_of_eq (congrArg num (List.mem_singleton.mp member))
  have left : through num (num e) rest = [] := by
    refine List.filter_eq_nil_iff.mpr fun f member => ?_
    have := apart.2.2 e (by simp) f member
    simp only [decide_eq_true_eq]
    omega
  calc through num (num e) l
      = through num (num e) (through num c l ++ (earlier ++ [e] ++ rest)) := by
        rw [ahead, ascending.through_append_after]
    _ = through num (num e) (through num c l) ++
          (through num (num e) (earlier ++ [e]) ++ through num (num e) rest) := by
        simp [through]
    _ = through num c l ++ (earlier ++ [e]) := by
        rw [passed, taken, left, List.append_nil]

end Vmctx.System.NumberedLog
