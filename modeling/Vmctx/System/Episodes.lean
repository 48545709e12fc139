import Mathlib.Logic.Function.Basic
import Mathlib.Data.List.Basic
/-!
# Locks that number their acquisitions

For each key at most one episode is outstanding. A claim of a free key issues the next number of
that key and a completion must name the outstanding number. The two histories list every episode
ever issued and every episode ever completed. `Consistent` ties the histories to the lock, and it is
kept by every step; exclusion and the uniqueness of issued numbers are read off it.
-/

namespace Vmctx.System

variable {κ : Type} [DecidableEq κ]

/-- The state of the locks of all keys, with the history of episodes. -/
@[ext] structure Episodes (κ : Type) where
  owner : κ → Option Nat
  last : κ → Nat
  issued : List (κ × Nat)
  finished : List (κ × Nat)

namespace Episodes

def start : Episodes κ := ⟨fun _ => none, fun _ => 0, [], []⟩

def claim (locks : Episodes κ) (key : κ) : Episodes κ :=
  { locks with
    owner := Function.update locks.owner key (some (locks.last key + 1))
    last := Function.update locks.last key (locks.last key + 1)
    issued := (key, locks.last key + 1) :: locks.issued }

def finish (locks : Episodes κ) (key : κ) (episode : Nat) : Episodes κ :=
  { locks with
    owner := Function.update locks.owner key none
    finished := (key, episode) :: locks.finished }

/-- A claim or a finish of a key, or no change. -/
inductive Step : Episodes κ → Episodes κ → Prop
  | idle (locks : Episodes κ) : Step locks locks
  | claim {locks : Episodes κ} {key : κ} (free : locks.owner key = none) :
      Step locks (locks.claim key)
  | finish {locks : Episodes κ} {key : κ} {episode : Nat}
      (owned : locks.owner key = some episode) : Step locks (locks.finish key episode)

structure Consistent (locks : Episodes κ) : Prop where
  numbered : ∀ key episode, (key, episode) ∈ locks.issued ↔ 0 < episode ∧ episode ≤ locks.last key
  once : locks.issued.Nodup
  outstanding : ∀ key episode, locks.owner key = some episode ↔
    (key, episode) ∈ locks.issued ∧ (key, episode) ∉ locks.finished
  completed : ∀ entry ∈ locks.finished, entry ∈ locks.issued

omit [DecidableEq κ] in
theorem start_consistent : (start : Episodes κ).Consistent := by
  constructor
  · intro key episode
    simp only [start, List.not_mem_nil, false_iff]
    omega
  · exact List.nodup_nil
  · simp [start]
  · simp [start]

variable {key : κ} {locks : Episodes κ}

theorem Consistent.claim (ok : locks.Consistent) (free : locks.owner key = none) :
    (locks.claim key).Consistent := by
  have unissued : (key, locks.last key + 1) ∉ locks.issued := by
    rw [ok.numbered]
    omega
  have uncompleted : (key, locks.last key + 1) ∉ locks.finished :=
    fun member => unissued (ok.completed _ member)
  have settled : ∀ episode, (key, episode) ∈ locks.issued → (key, episode) ∈ locks.finished := by
    intro episode issued
    by_contra open_
    have owned := (ok.outstanding key episode).mpr ⟨issued, open_⟩
    rw [free] at owned
    cases owned
  constructor
  · intro wanted episode
    simp only [Episodes.claim, List.mem_cons, Prod.mk.injEq, ok.numbered]
    by_cases same : wanted = key
    · subst same
      simp only [true_and, Function.update_self]
      omega
    · simp [same]
  · exact List.nodup_cons.mpr ⟨unissued, ok.once⟩
  · intro wanted episode
    simp only [Episodes.claim, List.mem_cons, Prod.mk.injEq]
    by_cases same : wanted = key
    · subst same
      simp only [Function.update_self, Option.some.injEq, true_and]
      constructor
      · rintro rfl
        exact ⟨.inl rfl, uncompleted⟩
      · rintro ⟨rfl | issued, open_⟩
        · rfl
        · exact absurd (settled episode issued) open_
    · simp [same, ok.outstanding]
  · intro entry member
    exact List.mem_cons_of_mem _ (ok.completed entry member)

theorem Consistent.finish {episode : Nat} (ok : locks.Consistent)
    (owned : locks.owner key = some episode) : (locks.finish key episode).Consistent := by
  obtain ⟨issued, -⟩ := (ok.outstanding key episode).mp owned
  refine ⟨ok.numbered, ok.once, ?_, ?_⟩
  · intro wanted other
    simp only [Episodes.finish, List.mem_cons, Prod.mk.injEq, not_or]
    by_cases same : wanted = key
    · subst same
      simp only [Function.update_self, true_and, reduceCtorEq, false_iff, not_and]
      intro otherIssued apart open_
      have alsoOwned := (ok.outstanding wanted other).mpr ⟨otherIssued, open_⟩
      rw [owned, Option.some.injEq] at alsoOwned
      exact apart alsoOwned.symm
    · simp [same, ok.outstanding]
  · intro entry member
    rcases List.mem_cons.mp member with rfl | earlier
    · exact issued
    · exact ok.completed entry earlier

theorem Consistent.step {locks' : Episodes κ} (ok : locks.Consistent) (step : Step locks locks') :
    locks'.Consistent := by
  cases step with
  | idle => exact ok
  | claim free => exact ok.claim free
  | finish owned => exact ok.finish owned

omit [DecidableEq κ] in
theorem Consistent.exclusive (ok : locks.Consistent) {first second : Nat}
    (one : (key, first) ∈ locks.issued ∧ (key, first) ∉ locks.finished)
    (two : (key, second) ∈ locks.issued ∧ (key, second) ∉ locks.finished) : first = second := by
  rw [← ok.outstanding] at one two
  rw [one, Option.some.injEq] at two
  exact two

end Episodes

end Vmctx.System
