import Mathlib.Data.List.Perm.Basic
import Mathlib.Data.List.Pairwise
/-!
# What a table says about a point

Each row of a table says something about some points and nothing about the others. Where no two rows
say something about one point, the order of the rows does not matter, and what the table says is a
partial function.
-/

namespace Vmctx.Table

open List

variable {ρ κ ν : Type} (value : ρ → κ → Option ν)

def Apart (rows : List ρ) : Prop :=
  rows.Pairwise fun row other => ∀ k, value row k = none ∨ value other k = none

def reads (rows : List ρ) (k : κ) : Option ν := rows.findSome? fun row => value row k

variable {value} {rows more : List ρ} {k : κ} {v : ν}

theorem Apart.perm (apart : Apart value rows) (same : rows.Perm more) : Apart value more :=
  (same.pairwise_iff fun here k => (here k).symm).mp apart

theorem Apart.reads_iff (apart : Apart value rows) :
    reads value rows k = some v ↔ ∃ row ∈ rows, value row k = some v := by
  induction rows with
  | nil => exact ⟨nofun, fun ⟨_, here, _⟩ => absurd here not_mem_nil⟩
  | cons row rows ih =>
    obtain ⟨others, apart⟩ := pairwise_cons.mp apart
    have ih := ih apart
    simp only [reads, List.findSome?_cons] at ih ⊢
    cases here : value row k with
    | some u =>
      constructor
      · intro same
        exact ⟨row, mem_cons_self, here.trans same⟩
      · rintro ⟨other, member, there⟩
        obtain rfl | member := mem_cons.mp member
        · exact here.symm.trans there
        · obtain none | none := others other member k
          · cases here.symm.trans none
          · cases there.symm.trans none
    | none =>
      show List.findSome? _ rows = some v ↔ _
      rw [ih]
      constructor
      · rintro ⟨other, member, there⟩
        exact ⟨other, .tail _ member, there⟩
      · rintro ⟨other, member, there⟩
        obtain rfl | member := mem_cons.mp member
        · cases here.symm.trans there
        · exact ⟨other, member, there⟩

theorem Apart.reads_perm (apart : Apart value rows) (same : rows.Perm more) :
    reads value rows k = reads value more k := by
  refine Option.ext fun v => ?_
  rw [apart.reads_iff, (apart.perm same).reads_iff]
  simp only [same.mem_iff]

theorem Apart.count_le (apart : Apart value rows) (k : κ) :
    rows.countP (fun row => (value row k).isSome) ≤ 1 := by
  induction rows with
  | nil => exact Nat.zero_le 1
  | cons row rows ih =>
    obtain ⟨others, apart⟩ := pairwise_cons.mp apart
    have ih := ih apart
    rw [countP_cons]
    cases here : (value row k).isSome with
    | false => simpa [here] using ih
    | true =>
      have none : rows.countP (fun row => (value row k).isSome) = 0 := by
        refine countP_eq_zero.mpr fun other member => ?_
        obtain quiet | quiet := others other member k
        · rw [quiet] at here
          cases here
        · rw [quiet]
          exact Bool.false_ne_true
      rw [none]
      exact Nat.le_refl 1

variable {pieces : ρ → List ρ}

theorem Apart.flatMap (apart : Apart value rows) (inner : ∀ row ∈ rows, Apart value (pieces row))
    (part : ∀ row ∈ rows, ∀ piece ∈ pieces row, ∀ k, value row k = none → value piece k = none) :
    Apart value (rows.flatMap pieces) := by
  refine pairwise_flatMap.mpr ⟨inner, apart.imp_of_mem fun {row other} here there quiet => ?_⟩
  intro piece member third also k
  exact (quiet k).imp (part row here piece member k) (part other there third also k)

theorem reads_append :
    reads value (rows ++ more) k = (reads value rows k).or (reads value more k) :=
  List.findSome?_append

theorem reads_flatMap {change : κ → Option ν → Option ν} (none : ∀ k, change k none = none)
    (each : ∀ row ∈ rows, ∀ k, reads value (pieces row) k = change k (value row k))
    (apart : Apart value rows) :
    reads value (rows.flatMap pieces) k = change k (reads value rows k) := by
  induction rows with
  | nil => exact (none k).symm
  | cons row rows ih =>
    obtain ⟨others, apart⟩ := pairwise_cons.mp apart
    have ih := ih (fun other member => each other (.tail _ member)) apart
    have first := each row mem_cons_self k
    rw [flatMap_cons, reads_append, first, ih]
    cases here : value row k with
    | none =>
      rw [none, Option.none_or]
      simp only [reads, List.findSome?_cons, here]
    | some u =>
      have quiet : reads value rows k = Option.none := by
        refine List.findSome?_eq_none_iff.mpr fun other member => ?_
        obtain no | no := others other member k
        · cases here.symm.trans no
        · exact no
      rw [quiet, none, Option.or_none]
      simp only [reads, List.findSome?_cons, here]

@[simp] theorem reads_nil : reads value [] k = none := rfl

@[simp] theorem reads_singleton (row : ρ) : reads value [row] k = value row k := by
  simp [reads]

theorem Apart.append {low high : κ → Prop} [DecidablePred low] [DecidablePred high]
    (first : Apart value rows) (second : Apart value more)
    (lower : ∀ k, ¬low k → reads value rows k = none)
    (upper : ∀ k, ¬high k → reads value more k = none)
    (different : ∀ k, ¬(low k ∧ high k)) : Apart value (rows ++ more) := by
  refine pairwise_append.mpr ⟨first, second, fun row here other there k => ?_⟩
  by_cases below : low k
  · have above : ¬high k := fun above => different k ⟨below, above⟩
    exact .inr (List.findSome?_eq_none_iff.mp (upper k above) other there)
  · exact .inl (List.findSome?_eq_none_iff.mp (lower k below) row here)

/-- Where every row leaves rows that are apart and say what it says, changed at each point in the
same way, so does the table. -/
theorem Apart.change {change : κ → Option ν → Option ν} (apart : Apart value rows)
    (none : ∀ k, change k none = none) (inner : ∀ row ∈ rows, Apart value (pieces row))
    (each : ∀ row ∈ rows, ∀ k, reads value (pieces row) k = change k (value row k)) :
    Apart value (rows.flatMap pieces) ∧
      ∀ k, reads value (rows.flatMap pieces) k = change k (reads value rows k) := by
  refine ⟨apart.flatMap inner fun row here piece part k quiet => ?_,
    fun k => reads_flatMap none each apart⟩
  have silent := each row here k
  rw [quiet, none] at silent
  exact List.findSome?_eq_none_iff.mp silent piece part

end Vmctx.Table
