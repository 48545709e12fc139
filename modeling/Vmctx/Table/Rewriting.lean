import Vmctx.Table.Pointwise
import Vmctx.Table.Reserve
import Vmctx.Table.Sweep
/-!
# Rewriting a table point by point

A sweep, or a pass, whose rows each leave rows that say the same thing changed at each point in one
way, changes what the table says in that way, and nothing is written outside of the table as long as
there is room for what is left.
-/

namespace Vmctx.Table

variable {ρ κ ν : Type} {value : ρ → κ → Option ν} {rows : List ρ} {capacity : Nat}
  {change : κ → Option ν → Option ν}

structure Rewritten (value : ρ → κ → Option ν) (rows : List ρ) (pieces : ρ → List ρ)
    (change : κ → Option ν → Option ν) (out : List ρ) : Prop where
  apart : Apart value out
  reads : ∀ k, reads value out k = change k (reads value rows k)
  perm : out.Perm (rows.flatMap pieces)

theorem Rewritten.source {pieces : ρ → List ρ} {out : List ρ} {piece : ρ}
    (rewritten : Rewritten value rows pieces change out) (member : piece ∈ out) :
    ∃ row ∈ rows, piece ∈ pieces row :=
  List.mem_flatMap.mp (rewritten.perm.mem_iff.mp member)

theorem Rewritten.of_perm {pieces : ρ → List ρ} {out : List ρ} (apart : Apart value rows)
    (none : ∀ k, change k none = none) (inner : ∀ row ∈ rows, Apart value (pieces row))
    (each : ∀ row ∈ rows, ∀ k, Table.reads value (pieces row) k = change k (value row k))
    (same : out.Perm (rows.flatMap pieces)) : Rewritten value rows pieces change out := by
  obtain ⟨left, said⟩ := apart.change none inner each
  have after := left.perm same.symm
  refine ⟨after, fun k => ?_, same⟩
  rw [after.reads_perm same, said]

theorem sweep_rewrites {verdict : ρ → Verdict ρ} {fuel : Nat} (apart : Apart value rows)
    (none : ∀ k, change k none = none)
    (inner : ∀ row ∈ rows, Apart value ((verdict row).pieces row))
    (each : ∀ row ∈ rows, ∀ k, reads value ((verdict row).pieces row) k = change k (value row k))
    (stable : ∀ row, ∀ piece ∈ (verdict row).rest, verdict piece = .keep)
    (enough : rounds verdict rows < fuel) (room : rows.length + growth verdict rows ≤ capacity) :
    ∃ out, sweep (within capacity) verdict fuel 0 rows = some out ∧
      out.length ≤ rows.length + growth verdict rows ∧
      Rewritten value rows (fun row => (verdict row).pieces row) change out := by
  obtain ⟨out, ran, same⟩ := @sweep_spec _ _ _ _ within_room stable _ [] rows
    (fun _ here => absurd here List.not_mem_nil) enough room
  refine ⟨out, ran, ?_, .of_perm apart none inner each same⟩
  rw [same.length_eq]
  exact length_leftOf_le rows

theorem pass_rewrites {recast : ρ → Option (ρ × List ρ)} (apart : Apart value rows)
    (none : ∀ k, change k none = none) (inner : ∀ row ∈ rows, Apart value (changed recast row))
    (each : ∀ row ∈ rows, ∀ k, reads value (changed recast row) k = change k (value row k))
    (room : (rows.flatMap (changed recast)).length ≤ capacity) :
    ∃ out, pass (within capacity) recast rows.length 0 rows = some out ∧
      Rewritten value rows (changed recast) change out := by
  have fits : ([] ++ rows.flatMap (changed recast) ++ []).length ≤ capacity := by
    rw [List.append_nil, List.nil_append]
    exact room
  obtain ⟨out, ran, same⟩ := @pass_spec _ _ capacity recast within_room [] rows [] fits
  rw [List.append_nil, List.nil_append] at ran same
  exact ⟨out, ran, .of_perm apart none inner each same⟩

end Vmctx.Table
