import Mathlib.Data.List.Count
import Mathlib.Data.List.Nodup
import Vmctx.Slots.Table
/-!
# The counters of a slot

A slot's counters are those of its holders, of its running tasks and of its leases. `Books` says so
for a list of slots and any three numbers an address may have, and its lemmas say what a step on one
slot does to them; the numbers that belong to a table follow.
-/

namespace Vmctx.Slots

/-! ## The books of a list of slots -/

/-- The slots agree with the number of holders, running tasks and leases of every address. -/
structure Books (slots : List Slot) (holders runners leased : Nat → Nat) : Prop where
  unique : ∀ (i j : Nat) (s s' : Slot) (a : Nat), slots[i]? = some s → slots[j]? = some s' →
    s.mm = some a → s'.mm = some a → i = j
  right : ∀ (i : Nat) (s : Slot) (a : Nat), slots[i]? = some s → s.mm = some a →
    s.n = holders a ∧ s.running = runners a ∧ s.paused = leased a
  present : ∀ a, holders a ≠ 0 ∨ runners a ≠ 0 →
    ∃ (i : Nat) (s : Slot), slots[i]? = some s ∧ s.mm = some a

variable {slots : List Slot} {holders runners leased holders' runners' leased' : Nat → Nat}
  {i j a : Nat} {s : Slot}

theorem modified {f : Slot → Slot} (here : slots[i]? = some s) :
    (slots.modify i f)[j]? = if j = i then some (f s) else slots[j]? := by
  rw [List.getElem?_modify]
  by_cases same : i = j
  · cases same
    simp [here]
  · simp [same, Ne.symm same]

/-- A slot that is the only one to name an address, before or after, follows the numbers of it. -/
theorem Books.modify {f : Slot → Slot} (books : Books slots holders runners leased)
    (here : slots[i]? = some s) (before : s.mm = none ∨ s.mm = some a)
    (alone : ∀ (j : Nat) (u : Slot), slots[j]? = some u → u.mm = some a → j = i)
    (others : ∀ b, b ≠ a → holders' b = holders b ∧ runners' b = runners b ∧ leased' b = leased b)
    (after : (f s).mm = none ∧ holders' a = 0 ∧ runners' a = 0 ∨
      (f s).mm = some a ∧ (f s).n = holders' a ∧ (f s).running = runners' a ∧
        (f s).paused = leased' a) : Books (slots.modify i f) holders' runners' leased' := by
  have old {j : Nat} {u : Slot} {b : Nat} (there : (slots.modify i f)[j]? = some u)
      (names : u.mm = some b) :
      j = i ∧ u = f s ∧ b = a ∨ slots[j]? = some u ∧ b ≠ a := by
    rw [modified here] at there
    split at there
    case isTrue same =>
      cases there
      obtain ⟨none, -⟩ | ⟨some, -⟩ := after
      · cases none.symm.trans names
      · exact .inl ⟨same, rfl, Option.some.inj (names.symm.trans some)⟩
    case isFalse other =>
      refine .inr ⟨there, ?_⟩
      rintro rfl
      exact other (alone j u there names)
  constructor
  case unique =>
    intro j k u v b first second namesU namesV
    obtain ⟨rfl, -, rfl⟩ | ⟨hereU, other⟩ := old first namesU
    · obtain ⟨rfl, -⟩ | ⟨-, other⟩ := old second namesV
      · rfl
      · exact absurd rfl other
    · obtain ⟨-, -, rfl⟩ | ⟨hereV, -⟩ := old second namesV
      · exact absurd rfl other
      · exact books.unique j k u v b hereU hereV namesU namesV
  case right =>
    intro j u b there names
    obtain ⟨-, rfl, rfl⟩ | ⟨hereU, different⟩ := old there names
    · obtain ⟨none, -⟩ | ⟨-, now⟩ := after
      · cases none.symm.trans names
      · exact now
    · obtain ⟨n, running, paused⟩ := books.right j u b hereU names
      obtain ⟨h, r, l⟩ := others b different
      exact ⟨n.trans h.symm, running.trans r.symm, paused.trans l.symm⟩
  case present =>
    intro b held
    by_cases same : b = a
    · cases same
      obtain ⟨-, unheld, idle⟩ | ⟨some, -⟩ := after
      · exact held.elim (absurd unheld) (absurd idle)
      · exact ⟨i, f s, by simp [modified here], some⟩
    · obtain ⟨h, r, -⟩ := others b same
      obtain ⟨j, u, there, names⟩ := books.present b (by rwa [h, r] at held)
      refine ⟨j, u, ?_, names⟩
      rw [modified here, if_neg]
      · exact there
      · rintro rfl
        cases here.symm.trans there
        obtain none | some := before
        · cases none.symm.trans names
        · exact same (Option.some.inj (names.symm.trans some))

theorem Books.congr (books : Books slots holders runners leased)
    (same : ∀ b, holders' b = holders b ∧ runners' b = runners b ∧ leased' b = leased b) :
    Books slots holders' runners' leased' where
  unique := books.unique
  right j u b there names := by
    obtain ⟨h, r, l⟩ := same b
    rw [h, r, l]
    exact books.right j u b there names
  present b held := by
    obtain ⟨h, r, -⟩ := same b
    rw [h, r] at held
    exact books.present b held

end Vmctx.Slots
