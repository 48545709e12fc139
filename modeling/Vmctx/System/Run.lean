/-!
# Runs of a labelled transition system

A system is a step relation from a state and a label to a state. A state is reached when some
finite sequence of steps leads to it. The rules here are the only inductions over runs: a safety
result proves what one step keeps and applies `Reach.invariant`, and a result that depends on a
condition of every step uses the restricted relation `Guarded`. A system whose steps compute is
run by `exec`, which exhibits a concrete reached state.
-/

namespace Vmctx.System

variable {σ α : Type}

/-- The states reached from a state by finitely many steps, whatever their labels. -/
inductive Reach (Step : σ → α → σ → Prop) (start : σ) : σ → Prop
  | refl : Reach Step start start
  | step {middle last : σ} {label : α} (run : Reach Step start middle)
      (next : Step middle label last) : Reach Step start last

def Guarded (Cond : σ → α → Prop) (Step : σ → α → σ → Prop) (before : σ) (label : α)
    (after : σ) : Prop := Cond before label ∧ Step before label after

namespace Reach

variable {Step Other : σ → α → σ → Prop} {start middle last : σ}

theorem invariant {Inv : σ → Prop}
    (keeps : ∀ before label after, Inv before → Step before label after → Inv after)
    (base : Inv start) (run : Reach Step start last) : Inv last := by
  induction run with
  | refl => exact base
  | step _ next ih => exact keeps _ _ _ ih next

/-- A property that steps out of reached states keep, where a step may use an invariant that is
already known to hold of every state reached. -/
theorem invariant_under {Known Inv : σ → Prop}
    (known : ∀ state, Reach Step start state → Known state)
    (keeps : ∀ before label after, Known before → Inv before → Step before label after → Inv after)
    (base : Inv start) (run : Reach Step start last) : Inv last := by
  induction run with
  | refl => exact base
  | step earlier next ih => exact keeps _ _ _ (known _ earlier) ih next

theorem trans (first : Reach Step start middle) (second : Reach Step middle last) :
    Reach Step start last := by
  induction second with
  | refl => exact first
  | step _ next ih => exact ih.step next

theorem mono (weaker : ∀ before label after, Step before label after → Other before label after)
    (run : Reach Step start last) : Reach Other start last := by
  induction run with
  | refl => exact refl
  | step _ next ih => exact ih.step (weaker _ _ _ next)

end Reach

def Computed (next : σ → α → Option σ) (before : σ) (label : α) (after : σ) : Prop :=
  next before label = some after

def exec (next : σ → α → Option σ) : σ → List α → Option σ
  | state, [] => some state
  | state, label :: rest => (next state label).bind fun after => exec next after rest

variable {next : σ → α → Option σ} {start : σ} {labels : List α} {c : σ → Bool}

theorem exec_reach {last : σ} (ran : exec next start labels = some last) :
    Reach (Computed next) start last := by
  induction labels generalizing start with
  | nil =>
    cases Option.some.inj ran
    exact Reach.refl
  | cons label rest ih =>
    obtain ⟨after, first, later⟩ := Option.bind_eq_some_iff.mp ran
    exact (Reach.refl.step first).trans (ih later)

theorem exec_get_reach (ran : (exec next start labels).isSome = true) :
    Reach (Computed next) start ((exec next start labels).get ran) :=
  exec_reach (Option.some_get ran).symm

theorem exec_exhibits (ran : (exec next start labels).any c = true) :
    ∃ last, Reach (Computed next) start last ∧ c last = true := by
  obtain ⟨last, computed, passes⟩ := (Option.any_eq_true _ _).mp ran
  exact ⟨last, exec_reach computed, passes⟩

/-- A check that passes on what a list of labels computes while its steps meet a condition passes on
some state reached by such steps. -/
theorem exec_exhibits_guarded {d : σ → α → Bool}
    (ran : (exec (fun s a => if d s a then next s a else none) start labels).any c = true) :
    ∃ last, Reach (Guarded (fun s a => d s a = true) (Computed next)) start last ∧
      c last = true := by
  obtain ⟨last, run, passes⟩ := exec_exhibits ran
  refine ⟨last, run.mono fun before label after step => ?_, passes⟩
  simp only [Computed] at step
  split at step
  · next meets => exact ⟨meets, step⟩
  · cases step

end Vmctx.System
