/-!
# Histories whose entries are justified

A history is a list of entries, latest first. It is justified when every entry stands in a relation
to the entries before it, so that what a history says about order is proved one entry at a time.
-/

namespace Vmctx.System

variable {ε : Type}

def Justified (Reason : ε → List ε → Prop) (history : List ε) : Prop :=
  ∀ later entry earlier, history = later ++ entry :: earlier → Reason entry earlier

namespace Justified

variable {Reason : ε → List ε → Prop}

theorem nil : Justified Reason [] := by
  intro later entry earlier same
  cases later <;> cases same

theorem cons {entry : ε} {history : List ε} (reason : Reason entry history)
    (justified : Justified Reason history) : Justified Reason (entry :: history) := by
  intro later found earlier same
  cases later with
  | nil =>
    cases same
    exact reason
  | cons first rest =>
    rw [List.cons_append, List.cons.injEq] at same
    exact justified rest found earlier same.2

end Justified

end Vmctx.System
