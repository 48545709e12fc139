/-!
# The newest row

A scan that replaces what it has found by every newer row ends with a row than which none is newer,
where what is not newer than something not newer than a third is not newer than the third.
-/

namespace Vmctx.Table

variable {α : Type} (newer : α → α → Bool)

def newest (rows : List α) : Option α :=
  rows.foldl (fun best row => if best.all (newer row) then some row else best) none

structure Newer : Prop where
  asymm : ∀ a b, newer a b = true → newer b a = false
  chain : ∀ a b c, newer a b = false → newer b c = false → newer a c = false

variable {newer} {rows : List α} {v : α}

theorem Newer.irrefl (order : Newer newer) (a : α) : newer a a = false := by
  cases same : newer a a with
  | false => rfl
  | true => exact same.symm.trans (order.asymm a a same)

theorem Newer.scan (order : Newer newer) (rows : List α) (best : α) :
    ∃ v, rows.foldl (fun best row => if best.all (newer row) then some row else best)
        (some best) = some v ∧ (v = best ∨ v ∈ rows) ∧ newer best v = false ∧
      ∀ row ∈ rows, newer row v = false := by
  induction rows generalizing best with
  | nil =>
    exact ⟨best, rfl, .inl rfl, order.irrefl best, fun _ here => absurd here List.not_mem_nil⟩
  | cons row rows ih =>
    rw [List.foldl_cons, Option.all_some]
    cases replaced : newer row best with
    | true =>
      obtain ⟨v, found, place, behind, none⟩ := ih row
      refine ⟨v, found, .inr ?_, order.chain _ _ _ (order.asymm _ _ replaced) behind,
        List.forall_mem_cons.mpr ⟨behind, none⟩⟩
      obtain rfl | later := place
      · exact List.mem_cons_self
      · exact List.mem_cons_of_mem row later
    | false =>
      obtain ⟨v, found, place, behind, none⟩ := ih best
      refine ⟨v, found, place.imp_right (List.mem_cons_of_mem row), behind,
        List.forall_mem_cons.mpr ⟨order.chain _ _ _ replaced behind, none⟩⟩

theorem Newer.newest_spec (order : Newer newer) (found : newest newer rows = some v) :
    v ∈ rows ∧ ∀ row ∈ rows, newer row v = false := by
  cases rows with
  | nil => cases found
  | cons row rows =>
    obtain ⟨w, scanned, place, behind, none⟩ := order.scan rows row
    cases found.symm.trans scanned
    exact ⟨List.mem_cons.mpr place, List.forall_mem_cons.mpr ⟨behind, none⟩⟩

theorem Newer.newest_none (order : Newer newer) : newest newer rows = none ↔ rows = [] := by
  cases rows with
  | nil => exact ⟨fun _ => rfl, fun _ => rfl⟩
  | cons row rows =>
    obtain ⟨w, scanned, -⟩ := order.scan rows row
    exact ⟨fun none => absurd (none.symm.trans scanned) nofun, nofun⟩

end Vmctx.Table
