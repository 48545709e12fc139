import Vmctx.Slots.Books
import Vmctx.System.Around
import Vmctx.System.Run
/-!
# Leases and the tasks they keep out

The references of a slot are its counted contexts, its pins and its leases. That holds along every
run in which a context whose address has a slot is forgotten only when the notes of all contexts of
the address were counted; then a slot is there as long as one of them is, its counters are right,
and a lease whose `BEGIN` has returned keeps every task of its address space from running.
-/

namespace Vmctx.Slots

open Vmctx.System List

namespace Table

def holders (t : Table) (a : Nat) : Nat :=
  t.contexts.countP (fun c => c.counted && c.mm.address == a) +
    t.pins.countP (fun mm => mm.address == a) + t.leases.countP (fun l => l.mm.address == a)

def runners (t : Table) (a : Nat) : Nat :=
  t.contexts.countP fun c => c.running && c.mm.address == a

def leased (t : Table) (a : Nat) : Nat := t.leases.countP fun l => l.mm.address == a

def Named (t : Table) (a : Nat) : Prop :=
  ∃ (i : Nat) (s : Slot), t.slots[i]? = some s ∧ s.mm = some a

structure Good (t : Table) : Prop where
  books : Books t.slots t.holders t.runners t.leased
  anchored : ∀ a, t.Named a → (∃ c ∈ t.contexts, c.mm.address = a ∧ c.counted = false) →
    ∃ c ∈ t.contexts, c.mm.address = a ∧ c.counted = true
  placed : ∀ l ∈ t.leases, ∃ s, t.slots[l.slot]? = some s ∧ s.mm = some l.mm.address
  tokens : (t.leases.map (·.token) ++ t.released.map (·.token)).Perm (List.range' 1 t.quiesceNext)
  waiting : ∀ w ∈ t.waiting, ∃ l ∈ t.leases, l.token = w.token ∧ l.owner = w.owner
  separate : (t.waiting.map (·.token)).Nodup
  resting : ∀ l ∈ t.leases, (∀ w ∈ t.waiting, w.token = l.token → w.observed = true) →
    t.runners l.mm.address = 0
  owned : ∀ r ∈ t.released, r.caller = r.owner

end Table

variable {t t' : Table} {a i : Nat} {mm : Mm}

/-! ## Finding a slot -/

theorem Table.slotOf_some (found : t.slotOf a = some i) :
    ∃ s, t.slots[i]? = some s ∧ s.mm = some a := by
  obtain ⟨bound, names, -⟩ := List.findIdx?_eq_some_iff_getElem.mp found
  exact ⟨t.slots[i], List.getElem?_eq_getElem bound, by simpa using names⟩

theorem Table.slotOf_none (absent : t.slotOf a = none) : ¬t.Named a := by
  rintro ⟨i, s, here, names⟩
  have none := List.findIdx?_eq_none_iff.mp absent s (mem_of_getElem? here)
  simp [names] at none

variable {s : Slot} {b token owner : Nat} {f : Slot → Slot} {slots : List Slot} {c : Context}
  {l : Lease} {contexts : List Context} {flag : Bool} {w : Waiting} {waiting : List Waiting}
  {act : Act}

theorem Table.Good.alone (good : t.Good) (here : t.slots[i]? = some s) (mm : s.mm = some a) :
    ∀ (j : Nat) (u : Slot), t.slots[j]? = some u → u.mm = some a → j = i :=
  fun j u there names => good.books.unique j i u s a there here names mm

/-- A position that names an address still does after a slot has changed that keeps the address. -/
theorem placed_modify {j : Nat} (here : slots[i]? = some s)
    (kept : s.mm = some b → (f s).mm = some b) (old : ∃ u, slots[j]? = some u ∧ u.mm = some b) :
    ∃ u, (slots.modify i f)[j]? = some u ∧ u.mm = some b := by
  obtain ⟨u, there, names⟩ := old
  rw [modified here]
  split
  case isTrue same =>
    cases same
    cases here.symm.trans there
    exact ⟨f s, rfl, kept names⟩
  case isFalse => exact ⟨u, there, names⟩

theorem named_modify (here : slots[i]? = some s)
    (now : ∃ (j : Nat) (u : Slot), (slots.modify i f)[j]? = some u ∧ u.mm = some b) :
    (∃ (j : Nat) (u : Slot), slots[j]? = some u ∧ u.mm = some b) ∨ (f s).mm = some b := by
  obtain ⟨j, u, there, names⟩ := now
  rw [modified here] at there
  split at there
  · cases there
    exact .inr names
  · exact .inl ⟨j, u, there, names⟩

theorem named_kept (here : slots[i]? = some s) (kept : (f s).mm = s.mm)
    (now : ∃ (j : Nat) (u : Slot), (slots.modify i f)[j]? = some u ∧ u.mm = some b) :
    ∃ (j : Nat) (u : Slot), slots[j]? = some u ∧ u.mm = some b :=
  (named_modify here now).elim id fun same => ⟨i, s, here, kept.symm.trans same⟩

/-! ## Counting -/

theorem Table.leased_le (t : Table) (a : Nat) : t.leased a ≤ t.holders a :=
  Nat.le_add_left ..

theorem Table.counted_holds (here : c ∈ t.contexts) (counted : c.counted = true) :
    t.holders c.mm.address ≠ 0 := by
  have positive : 0 < t.contexts.countP fun d => d.counted && d.mm.address == c.mm.address :=
    countP_pos_iff.mpr ⟨c, here, by simp [counted]⟩
  simp only [Table.holders]
  omega

theorem Table.lease_holds (here : l ∈ t.leases) : t.leased l.mm.address ≠ 0 := by
  have positive : 0 < t.leases.countP fun m => m.mm.address == l.mm.address :=
    countP_pos_iff.mpr ⟨l, here, by simp⟩
  simp only [Table.leased]
  omega

theorem Table.exists_runner (some : t.runners a ≠ 0) :
    ∃ c ∈ t.contexts, c.running = true ∧ c.mm.address = a := by
  obtain ⟨c, here, runs⟩ := countP_pos_iff.mp (Nat.pos_of_ne_zero some)
  simp only [Bool.and_eq_true, beq_iff_eq] at runs
  exact ⟨c, here, runs⟩

theorem Table.Good.idle (good : t.Good) (named : t.Named a)
    (uncounted : ∀ c ∈ t.contexts, c.mm.address = a → c.counted = false) : t.runners a = 0 := by
  by_contra some
  obtain ⟨c, here, -, address⟩ := Table.exists_runner some
  obtain ⟨d, there, same, counted⟩ :=
    good.anchored a named ⟨c, here, address, uncounted c here address⟩
  cases (uncounted d there same).symm.trans counted

theorem forget_books {holders runners leased holders' runners' leased' : Nat → Nat}
    (books : Books slots holders runners leased) (here : slots[i]? = some s) (mm : s.mm = some a)
    (others : ∀ b, b ≠ a → holders' b = holders b ∧ runners' b = runners b ∧ leased' b = leased b)
    (one : holders' a + 1 = holders a) (running : runners' a = runners a)
    (paused : leased' a = leased a) (idle : holders' a = 0 → runners a = 0) :
    Books (slots.modify i fun s => if 0 < s.n - 1 then { s with n := s.n - 1 } else .free)
      holders' runners' leased' := by
  obtain ⟨n, r, l⟩ := books.right i s a here mm
  refine books.modify here (.inr mm) ?_ others ?_
  · exact fun j u there names => books.unique j i u s a there here names mm
  · by_cases more : 0 < s.n - 1
    · rw [if_pos more]
      refine .inr ⟨mm, ?_, r.trans running.symm, l.trans paused.symm⟩
      show s.n - 1 = holders' a
      omega
    · rw [if_neg more]
      have none : holders' a = 0 := by omega
      exact .inl ⟨rfl, none, running.trans (idle none)⟩

/-! ## Notes -/

theorem Table.Good.note (good : t.Good) (mm : Mm) : (t.note mm).Good := by
  have counted (c : Context) (b : Nat) (idle : c.running = false) :
      Table.runners { t with contexts := c :: t.contexts } b = t.runners b := by
    simp [Table.runners, idle]
  simp only [Table.note]
  split
  case h_1 i found =>
    obtain ⟨s, here, names⟩ := Table.slotOf_some found
    have books := good.books.right i s _ here names
    exact { good with
      books := by
        refine good.books.modify here (.inr names) (good.alone here names) ?_ (.inr ⟨names, ?_⟩)
        · intro b other
          refine ⟨?_, counted _ b rfl, rfl⟩
          simp [Table.holders, Table.modify, Ne.symm other]
        · refine ⟨?_, books.2.1.trans (counted _ _ rfl).symm, books.2.2⟩
          simp only [Table.holders, Table.modify, countP_cons, beq_self_eq_true, Bool.and_self,
            if_true]
          have n := books.1
          simp only [Table.holders] at n
          omega
      anchored := fun b named ⟨c, mem, address, flag⟩ => by
        obtain rfl | old := mem_cons.mp mem
        · cases flag
        · obtain ⟨d, there, rest⟩ :=
            good.anchored b (named_kept here rfl named) ⟨c, old, address, flag⟩
          exact ⟨d, mem_cons_of_mem _ there, rest⟩
      placed := fun l mem => placed_modify here id (good.placed l mem)
      resting := fun l mem seen => (counted _ _ rfl).trans (good.resting l mem seen) }
  case h_2 absent =>
    have absent := Table.slotOf_none absent
    have unheld : t.holders mm.address = 0 := by
      by_contra held
      exact absent (good.books.present _ (.inl held))
    have idle : t.runners mm.address = 0 := by
      by_contra some
      exact absent (good.books.present _ (.inr some))
    split
    case h_1 i found =>
      obtain ⟨bound, free, -⟩ := List.findIdx?_eq_some_iff_getElem.mp found
      have here : t.slots[i]? = some t.slots[i] := List.getElem?_eq_getElem bound
      have free : t.slots[i].mm = none := by simpa using free
      exact { good with
        books := by
          refine good.books.modify here (.inl free) ?_ ?_ (.inr ⟨rfl, ?_⟩)
          · exact fun j u there names => absurd ⟨j, u, there, names⟩ absent
          · intro b other
            refine ⟨?_, counted _ b rfl, rfl⟩
            simp [Table.holders, Table.modify, Ne.symm other]
          · refine ⟨?_, (idle.symm.trans (counted _ _ rfl).symm), ?_⟩
            · simp only [Table.holders, Table.modify, countP_cons, beq_self_eq_true,
                Bool.and_self, if_true]
              simp only [Table.holders] at unheld
              omega
            · have fewer := t.leased_le mm.address
              show 0 = t.leased mm.address
              omega
        anchored := fun b named ⟨c, mem, address, flag⟩ => by
          obtain rfl | old := mem_cons.mp mem
          · cases flag
          · by_cases same : mm.address = b
            · exact ⟨_, mem_cons_self, same, rfl⟩
            · have named := (named_modify here named).resolve_right
                fun now => same (Option.some.inj now)
              obtain ⟨d, there, rest⟩ := good.anchored b named ⟨c, old, address, flag⟩
              exact ⟨d, mem_cons_of_mem _ there, rest⟩
        placed := fun l mem =>
          placed_modify here (fun names => nomatch free.symm.trans names) (good.placed l mem)
        resting := fun l mem seen => (counted _ _ rfl).trans (good.resting l mem seen) }
    · exact { good with
        books := good.books.congr fun b => ⟨by simp [Table.holders], counted _ b rfl, rfl⟩
        anchored := fun b named ⟨c, mem, address, flag⟩ => by
          obtain rfl | old := mem_cons.mp mem
          · cases address
            exact absurd named absent
          · obtain ⟨d, there, rest⟩ := good.anchored b named ⟨c, old, address, flag⟩
            exact ⟨d, mem_cons_of_mem _ there, rest⟩
        resting := fun l mem seen => (counted _ _ rfl).trans (good.resting l mem seen) }

/-! ## Releases -/

theorem Table.Good.find (good : t.Good) (held : t.holders a ≠ 0) :
    ∃ i s, t.slotOf a = some i ∧ t.slots[i]? = some s ∧ s.mm = some a := by
  cases found : t.slotOf a with
  | none => exact absurd (good.books.present a (.inl held)) (Table.slotOf_none found)
  | some i =>
    obtain ⟨s, here, names⟩ := Table.slotOf_some found
    exact ⟨i, s, rfl, here, names⟩

theorem Table.forget_eq (t : Table) (a : Nat) :
    t.forget a = { t with slots := (t.forget a).slots } := by
  simp only [Table.forget]
  split <;> rfl

/-- `vmctx_mm_forget` when one holder of an address is gone from the contexts or from the pins. -/
theorem Table.Good.forget {pins : List Mm} (good : t.Good)
    (others : ∀ b, b ≠ a → Table.holders { t with contexts, pins } b = t.holders b)
    (one : Table.holders { t with contexts, pins } a + 1 = t.holders a)
    (running : ∀ b, Table.runners { t with contexts, pins } b = t.runners b)
    (idle : Table.holders { t with contexts, pins } a = 0 → t.runners a = 0)
    (anchored : ∀ b, t.Named b → (∃ c ∈ contexts, c.mm.address = b ∧ c.counted = false) →
      ∃ c ∈ contexts, c.mm.address = b ∧ c.counted = true) :
    Table.Good { t with slots := (t.forget a).slots, contexts, pins } := by
  obtain ⟨i, s, found, here, names⟩ := good.find (a := a) (by omega)
  obtain ⟨n, -, -⟩ := good.books.right i s a here names
  simp only [Table.forget, found, Table.modify]
  exact { good with
    books := forget_books good.books here names
      (fun b other => ⟨others b other, running b, rfl⟩) one (running a) rfl idle
    anchored := fun b named uncounted => by
      refine anchored b ((named_modify here named).elim id fun now => ?_) uncounted
      split at now
      · exact ⟨i, s, here, now⟩
      · cases now
    placed := fun l mem => by
      refine placed_modify here (fun same => ?_) (good.placed l mem)
      have address := Option.some.inj (same.symm.trans names)
      have leased : t.leased l.mm.address ≠ 0 := Table.lease_holds mem
      have fewer : t.leased l.mm.address ≤ _ :=
        Table.leased_le { t with contexts, pins } l.mm.address
      have more : 0 < s.n - 1 := by
        rw [address] at leased fewer
        omega
      rw [if_pos more]
      exact same
    resting := fun l mem seen => (running _).trans (good.resting l mem seen) }

theorem Table.Good.forgetAbsent (good : t.Good) (here : t.contexts[i]? = some c)
    (still : c.running = false) (absent : ¬t.Named c.mm.address) :
    Table.Good { t with contexts := t.contexts.eraseIdx i } := by
  have mem := mem_of_getElem? here
  have flag : c.counted = false := by
    by_contra counted
    have holds := Table.counted_holds mem (by simpa using counted)
    exact absent (good.books.present _ (.inl holds))
  have held (b : Nat) := countP_eraseIdx (fun c => c.counted && c.mm.address == b) here
  have ran (b : Nat) := countP_eraseIdx (fun c => c.running && c.mm.address == b) here
  simp only [flag, still, Bool.false_and, Bool.false_eq_true, if_false] at held ran
  exact { good with
    books := by
      refine good.books.congr fun b => ⟨?_, ran b, rfl⟩
      have held := held b
      simp only [Table.holders]
      omega
    anchored := fun b named ⟨d, there, address, uncounted⟩ => by
      obtain ⟨e, member, same, counts⟩ :=
        good.anchored b named ⟨d, mem_of_mem_eraseIdx there, address, uncounted⟩
      obtain ⟨before, after, split, -, erased⟩ := around here
      have other : e ≠ c := by
        rintro rfl
        cases flag.symm.trans counts
      refine ⟨e, ?_, same, counts⟩
      rw [split] at member
      show e ∈ t.contexts.eraseIdx i
      rw [erased]
      simpa [other] using member
    resting := fun l mem seen => (ran _).trans (good.resting l mem seen) }

theorem Table.Good.forgetContext (good : t.Good)
    (counted : ∀ c, t.contexts[i]? = some c → t.Named c.mm.address → ∀ d ∈ t.contexts,
      d.mm.address = c.mm.address → d.counted = true)
    (step : t.forgetContext i = some t') : t'.Good := by
  obtain ⟨c, here, step⟩ := Option.bind_eq_some_iff.mp step
  have mem := mem_of_getElem? here
  split at step
  · cases step
  case isFalse still =>
    have still : c.running = false := by simpa using still
    cases step
    by_cases absent : ¬t.Named c.mm.address
    · have none : t.slotOf c.mm.address = none := by
        cases found : t.slotOf c.mm.address with
        | none => rfl
        | some j => exact absurd ⟨j, Table.slotOf_some found⟩ absent
      simp only [Table.forget, none]
      exact good.forgetAbsent here still absent
    rw [Table.forget_eq]
    have all := counted c here (not_not.mp absent)
    have flag := all c mem rfl
    have held (b : Nat) := countP_eraseIdx (fun c => c.counted && c.mm.address == b) here
    have ran (b : Nat) := countP_eraseIdx (fun c => c.running && c.mm.address == b) here
    have sub : ∀ d, d ∈ t.contexts.eraseIdx i → d ∈ t.contexts := fun d =>
      mem_of_mem_eraseIdx
    have left : ∀ d ∈ t.contexts, d ≠ c → d ∈ t.contexts.eraseIdx i := by
      intro d member other
      obtain ⟨before, after, split, -, erased⟩ := around here
      rw [split] at member
      rw [erased]
      simpa [other] using member
    refine good.forget ?_ ?_ ?_ ?_ ?_
    · intro b other
      have held := held b
      simp only [flag, Bool.true_and, beq_iff_eq, Ne.symm other, if_false] at held
      simp only [Table.holders]
      omega
    · have held := held c.mm.address
      simp only [flag, Bool.true_and, beq_self_eq_true, if_true] at held
      simp only [Table.holders]
      omega
    · intro b
      have ran := ran b
      simp only [still, Bool.false_and, Bool.false_eq_true, if_false] at ran
      exact ran
    · intro unheld
      have ran := ran c.mm.address
      simp only [still, Bool.false_and, Bool.false_eq_true, if_false] at ran
      by_contra some
      simp only [Table.runners] at some
      rw [← ran] at some
      obtain ⟨d, there, runs⟩ := countP_pos_iff.mp (Nat.pos_of_ne_zero some)
      simp only [Bool.and_eq_true, beq_iff_eq] at runs
      have counts := all d (sub d there) runs.2
      refine absurd unheld ?_
      have holds := Table.counted_holds
        (t := { t with contexts := t.contexts.eraseIdx i, pins := t.pins }) there counts
      rwa [runs.2] at holds
    · rintro b named ⟨d, there, address, uncounted⟩
      obtain ⟨e, member, same, counts⟩ := good.anchored b named ⟨d, sub d there, address, uncounted⟩
      refine ⟨e, left e member ?_, same, counts⟩
      rintro rfl
      cases (all d (sub d there) (address.trans same.symm)).symm.trans uncounted

theorem Table.Good.unpin (good : t.Good) (step : t.unpin i = some t') : t'.Good := by
  obtain ⟨mm, here, rfl⟩ := Option.map_eq_some_iff.mp step
  rw [Table.forget_eq]
  have held (b : Nat) := countP_eraseIdx (fun mm => mm.address == b) here
  refine good.forget ?_ ?_ (fun _ => rfl) ?_ good.anchored
  · intro b other
    have held := held b
    simp only [beq_iff_eq, Ne.symm other, if_false] at held
    simp only [Table.holders]
    omega
  · have held := held mm.address
    simp only [beq_self_eq_true, if_true] at held
    simp only [Table.holders]
    omega
  · intro unheld
    have holds : t.holders mm.address ≠ 0 := by
      have positive : 0 < t.pins.countP fun m => m.address == mm.address :=
        countP_pos_iff.mpr ⟨mm, mem_of_getElem? here, by simp⟩
      simp only [Table.holders]
      omega
    refine good.idle (good.books.present _ (.inl holds)) fun c mem address => ?_
    cases flag : c.counted with
    | false => rfl
    | true =>
      have holds := Table.counted_holds
        (t := { t with contexts := t.contexts, pins := t.pins.eraseIdx i }) mem flag
      rw [address] at holds
      exact absurd unheld holds

theorem Table.Good.hold {checked : Bool} (good : t.Good) (step : t.hold mm checked = some t') :
    t'.Good := by
  obtain ⟨i, found, step⟩ := Option.bind_eq_some_iff.mp step
  obtain ⟨s, here, names⟩ := Table.slotOf_some found
  simp only [here] at step
  split at step
  · cases step
  · cases step
    obtain ⟨n, running, paused⟩ := good.books.right i s _ here names
    exact { good with
      books := by
        refine good.books.modify here (.inr names) (good.alone here names) ?_
          (.inr ⟨names, ?_, running, paused⟩)
        · intro b other
          refine ⟨?_, rfl, rfl⟩
          simp [Table.holders, Table.modify, Ne.symm other]
        · simp only [Table.holders, Table.modify, countP_cons, beq_self_eq_true, if_true]
          simp only [Table.holders] at n
          omega
      anchored := fun b named => good.anchored b (named_kept here rfl named)
      placed := fun l mem => placed_modify here id (good.placed l mem) }

/-! ## Entering and leaving -/

theorem holders_running (here : contexts[i]? = some c) (b : Nat) :
    (contexts.set i { c with running := flag }).countP (fun c => c.counted && c.mm.address == b) =
      contexts.countP fun c => c.counted && c.mm.address == b :=
  Nat.add_right_cancel (countP_set (fun c => c.counted && c.mm.address == b) here
    { c with running := flag })

theorem anchored_running (here : contexts[i]? = some c)
    (old : (∃ c ∈ contexts, c.mm.address = b ∧ c.counted = false) →
      ∃ c ∈ contexts, c.mm.address = b ∧ c.counted = true)
    (uncounted : ∃ d ∈ contexts.set i { c with running := flag },
      d.mm.address = b ∧ d.counted = false) :
    ∃ d ∈ contexts.set i { c with running := flag }, d.mm.address = b ∧ d.counted = true := by
  obtain ⟨before, after, split, set, -⟩ := around here
  rw [split] at old
  rw [set] at uncounted ⊢
  simpa [mem_append, mem_cons, or_and_right, exists_or] using
    old (by simpa [mem_append, mem_cons, or_and_right, exists_or] using uncounted)

section

variable (good : t.Good)
include good

/-- A context enters or leaves its address space, whose slot counts it. -/
theorem Table.Good.turned (run : Nat → Nat) {j : Nat} (ours : t.contexts[i]? = some c)
    (here : t.slots[j]? = some s) (names : s.mm = some c.mm.address)
    (others : ∀ b, b ≠ c.mm.address → (t.contexts.set i { c with running := flag }).countP
      (fun c => c.running && c.mm.address == b) = t.runners b)
    (counts : run s.running = (t.contexts.set i { c with running := flag }).countP
      fun d => d.running && d.mm.address == c.mm.address)
    (resting : ∀ l ∈ t.leases, l.mm.address = c.mm.address → t.runners c.mm.address = 0 →
      run s.running = 0) :
    Table.Good { t with
      slots := t.slots.modify j fun s => { s with running := run s.running }
      contexts := t.contexts.set i { c with running := flag } } := by
  obtain ⟨n, -, paused⟩ := good.books.right j s _ here names
  exact { good with
    books := by
      refine good.books.modify here (.inr names) (good.alone here names) ?_
        (.inr ⟨names, ?_, counts, paused⟩)
      · intro b other
        refine ⟨?_, others b other, rfl⟩
        simp only [Table.holders, holders_running ours]
      · simp only [Table.holders, holders_running ours]
        exact n
    anchored := fun b named =>
      anchored_running ours (good.anchored b (named_kept here rfl named))
    placed := fun l mem => placed_modify here id (good.placed l mem)
    resting := fun l mem seen => by
      have rest := good.resting l mem seen
      by_cases same : l.mm.address = c.mm.address
      · have none := resting l mem same (same ▸ rest)
        rw [counts, ← same] at none
        exact none
      · exact (others _ same).trans rest }

theorem Table.Good.enter (step : t.enter i = some t') : t'.Good := by
  obtain ⟨c, ours, step⟩ := Option.bind_eq_some_iff.mp step
  obtain ⟨j, found, step⟩ := Option.bind_eq_some_iff.mp step
  obtain ⟨s, here, names⟩ := Table.slotOf_some found
  simp only [here] at step
  split at step
  · cases step
  case isFalse free =>
    have ⟨still, unpaused⟩ := not_or.mp free
    have still : c.running = false := by simpa using still
    have unpaused : s.paused = 0 := not_not.mp unpaused
    cases step
    obtain ⟨-, running, paused⟩ := good.books.right j s _ here names
    have ran (b : Nat) := countP_set (fun c => c.running && c.mm.address == b) ours
      { c with running := true }
    refine good.turned (· + 1) ours here names ?_ ?_ ?_
    · intro b other
      have ran := ran b
      simpa [still, Ne.symm other, Table.runners] using ran
    · have ran := ran c.mm.address
      simp only [still, Bool.false_and, Bool.false_eq_true, if_false, Bool.true_and,
        beq_self_eq_true, if_true] at ran
      simp only [Table.runners] at running
      omega
    · intro l mem same
      have leased : t.leased l.mm.address ≠ 0 := Table.lease_holds mem
      rw [same, ← paused] at leased
      exact absurd unpaused leased

theorem Table.Good.leave (step : t.leave i = some t') : t'.Good := by
  obtain ⟨c, ours, step⟩ := Option.bind_eq_some_iff.mp step
  split at step
  · cases step
  case isFalse runs =>
    have runs : c.running = true := by simpa using runs
    have some : t.runners c.mm.address ≠ 0 := by
      have positive : 0 < t.contexts.countP fun d => d.running && d.mm.address == c.mm.address :=
        countP_pos_iff.mpr ⟨c, mem_of_getElem? ours, by simp [runs]⟩
      simp only [Table.runners]
      omega
    have ran (b : Nat) := countP_set (fun c => c.running && c.mm.address == b) ours
      { c with running := false }
    split at step
    case h_1 absent =>
      exact absurd (good.books.present _ (.inr some)) (Table.slotOf_none absent)
    case h_2 j found =>
      obtain ⟨s, here, names⟩ := Table.slotOf_some found
      cases step
      have running := (good.books.right j s _ here names).2.1
      refine good.turned (· - 1) ours here names ?_ ?_ (fun _ _ _ none => absurd none some)
      · intro b other
        have ran := ran b
        simpa [Ne.symm other, Table.runners] using ran
      · have ran := ran c.mm.address
        simp only [runs, Bool.false_and, Bool.false_eq_true, if_false, Bool.true_and,
          beq_self_eq_true, if_true] at ran
        simp only [Table.runners] at running
        omega

/-! ## Leases -/

theorem Table.Good.issued (here : token ∈ t.leases.map (·.token) ++ t.released.map (·.token)) :
    1 ≤ token ∧ token ≤ t.quiesceNext := by
  have range := good.tokens.mem_iff.mp here
  rw [mem_range'_1] at range
  omega

theorem Table.Good.same_lease {m : Lease} (first : l ∈ t.leases) (second : m ∈ t.leases)
    (same : l.token = m.token) : l = m := by
  have nodup := (good.tokens.nodup_iff.mpr nodup_range').of_append_left
  exact inj_on_of_nodup_map nodup first second same

theorem Table.Good.waits (ours : t.waiting[i]? = some w) :
    w.token ≠ 0 ∧ ∃ l ∈ t.leases, l.token = w.token ∧ l.owner = w.owner := by
  obtain ⟨l, mem, token, owner⟩ := good.waiting w (mem_of_getElem? ours)
  have issued := good.issued (mem_append_left _ (mem_map_of_mem mem))
  exact ⟨by omega, l, mem, token, owner⟩

theorem Table.Good.begin {mmId : Nat} (step : t.begin owner mm mmId = some t') : t'.Good := by
  simp only [Table.begin] at step
  split at step
  · cases step
  case isFalse =>
    obtain ⟨i, found, step⟩ := Option.bind_eq_some_iff.mp step
    obtain ⟨s, here, names⟩ := Table.slotOf_some found
    simp only [here] at step
    split at step
    · cases step
    · split at step
      · cases step
      · cases step
        obtain ⟨n, running, paused⟩ := good.books.right i s _ here names
        have fresh {token : Nat} (old : token ∈ t.leases.map (·.token)) :
            token ≠ t.quiesceNext + 1 := by
          have issued := good.issued (mem_append_left _ old)
          omega
        have awaits {w : Waiting} (old : w ∈ t.waiting) : w.token ≠ t.quiesceNext + 1 := by
          obtain ⟨l, mem, same, -⟩ := good.waiting w old
          exact same ▸ fresh (mem_map_of_mem mem)
        exact { good with
          books := by
            refine good.books.modify here (.inr names) (good.alone here names) ?_
              (.inr ⟨names, ?_, running, ?_⟩)
            · intro b other
              simp [Table.holders, Table.leased, Table.runners, Table.modify, Ne.symm other]
            · simp only [Table.holders, Table.modify, countP_append, countP_singleton,
                beq_self_eq_true, if_true]
              simp only [Table.holders] at n
              omega
            · simp only [Table.leased, countP_append, countP_singleton,
                beq_self_eq_true, if_true]
              simp only [Table.leased] at paused
              omega
          anchored := fun b named => good.anchored b (named_kept here rfl named)
          placed := fun l mem => by
            obtain old | new := mem_append.mp mem
            · exact placed_modify here id (good.placed l old)
            · cases mem_singleton.mp new
              exact placed_modify here id ⟨s, here, names⟩
          tokens := by
            rw [map_append, List.range'_concat, append_assoc]
            refine (perm_append_comm.append_left _).trans ?_
            rw [← append_assoc, Nat.one_mul, Nat.add_comm]
            exact good.tokens.append_right _
          waiting := fun w mem => by
            obtain rfl | old := mem_cons.mp mem
            · exact ⟨_, mem_append_right _ (mem_singleton.mpr rfl), rfl, rfl⟩
            · obtain ⟨l, there, same⟩ := good.waiting w old
              exact ⟨l, mem_append_left _ there, same⟩
          separate := by
            refine nodup_cons.mpr ⟨fun mem => ?_, good.separate⟩
            obtain ⟨w, there, same⟩ := mem_map.mp mem
            exact awaits there same
          resting := fun l mem seen => by
            obtain old | new := mem_append.mp mem
            · exact good.resting l old fun w there => seen w (mem_cons_of_mem _ there)
            · cases mem_singleton.mp new
              cases seen _ mem_cons_self rfl }

theorem Table.Good.observe (step : t.observe i = some t') : t'.Good := by
  obtain ⟨w, ours, step⟩ := Option.bind_eq_some_iff.mp step
  obtain ⟨l, found, step⟩ := Option.bind_eq_some_iff.mp step
  obtain ⟨s, here, step⟩ := Option.bind_eq_some_iff.mp step
  have mem := mem_of_find?_eq_some found
  have token : l.token = w.token := by simpa using List.find?_some found
  split at step
  · cases step
  case isFalse quiet =>
    have quiet : s.running = 0 := not_not.mp quiet
    cases step
    obtain ⟨u, there, names⟩ := good.placed l mem
    cases here.symm.trans there
    have rest := (good.books.right l.slot s _ here names).2.1
    obtain ⟨before, after, split, set, -⟩ := around ours
    exact { good with
      waiting := fun v member => by
        rw [set] at member
        obtain old | rfl | old := by simpa using member
        · exact good.waiting v (by rw [split]; simp [old])
        · exact good.waiting w (mem_of_getElem? ours)
        · exact good.waiting v (by rw [split]; simp [old])
      separate := by
        have separate := good.separate
        rw [split] at separate
        rw [set]
        simpa using separate
      resting := fun m member seen => by
        by_cases same : m.token = w.token
        · cases good.same_lease member mem (same.trans token.symm)
          exact rest.symm.trans quiet
        · refine good.resting m member fun v old named => seen v ?_ named
          rw [split] at old
          rw [set]
          obtain early | rfl | late := by simpa using old
          · simp [early]
          · exact absurd named.symm same
          · simp [late] }

theorem Table.Good.succeed (step : t.succeed i = some t') : t'.Good := by
  simp only [Table.succeed] at step
  split at step
  case h_1 token owner ours =>
    cases step
    exact { good with
      waiting := fun v member => good.waiting v (mem_of_mem_eraseIdx member)
      separate := good.separate.sublist ((eraseIdx_sublist ..).map _)
      resting := fun m member seen => by
        obtain ⟨before, after, split, -, erased⟩ := around ours
        refine good.resting m member fun v old named => ?_
        rw [split] at old
        obtain early | rfl | late := by simpa using old
        · exact seen v (by rw [erased]; simp [early]) named
        · rfl
        · exact seen v (by rw [erased]; simp [late]) named }
  · cases step

/-- The first section of `vmctx_quiesce_end`, for a lease that no `BEGIN` waits on any more. -/
theorem Table.Good.unlink (sub : waiting.Sublist t.waiting)
    (gone : ∀ l ∈ t.leases, l.owner = owner → (token = 0 ∨ l.token = token) →
      ∀ w ∈ waiting, w.token ≠ l.token)
    (seen : ∀ w ∈ t.waiting, w ∉ waiting → w.token = token ∧ token ≠ 0)
    (step : Table.unlink { t with waiting } token owner = some t') : t'.Good := by
  obtain ⟨l, found, rfl⟩ := Option.map_eq_some_iff.mp step
  have mem : l ∈ t.leases := mem_of_find?_eq_some found
  have fits := List.find?_some found
  simp only [decide_eq_true_eq] at fits
  obtain ⟨s, here, names⟩ := good.placed l mem
  obtain ⟨n, running, paused⟩ := good.books.right l.slot s _ here names
  have split := perm_cons_erase mem
  have held (b : Nat) := split.countP_eq fun m => m.mm.address == b
  have nodup := (good.tokens.nodup_iff.mpr nodup_range').of_append_left
  have other {m : Lease} (left : m ∈ t.leases.erase l) : m ≠ l := by
    rintro rfl
    exact (List.Nodup.of_map _ nodup).not_mem_erase left
  exact { good with
    books := by
      refine good.books.modify here (.inr names) (good.alone here names) ?_
        (.inr ⟨names, ?_, running, ?_⟩)
      · intro b different
        have held := held b
        simp only [countP_cons, beq_iff_eq, Ne.symm different, if_false] at held
        simp only [Table.holders, Table.leased, Table.runners, Table.modify, countP_cons,
          beq_iff_eq, Ne.symm different, if_false]
        exact ⟨by omega, trivial, by omega⟩
      · have held := held l.mm.address
        simp only [countP_cons, beq_self_eq_true, if_true] at held
        simp only [Table.holders, Table.modify, countP_cons, beq_self_eq_true, if_true] at n ⊢
        omega
      · have held := held l.mm.address
        simp only [countP_cons, beq_self_eq_true, if_true] at held
        simp only [Table.leased] at paused ⊢
        omega
    anchored := fun b named => good.anchored b (named_kept here rfl named)
    placed := fun m left => placed_modify here id (good.placed m (mem_of_mem_erase left))
    tokens := by
      refine perm_middle.trans (List.Perm.trans ?_ good.tokens)
      exact (split.map (·.token)).symm.append_right _
    waiting := fun w member => by
      obtain ⟨m, there, same, owner⟩ := good.waiting w (sub.subset member)
      refine ⟨m, (mem_erase_of_ne ?_).mpr there, same, owner⟩
      rintro rfl
      exact gone m mem fits.1 fits.2 w member same.symm
    separate := good.separate.sublist (sub.map _)
    resting := fun m left now => by
      refine good.resting m (mem_of_mem_erase left) fun w old named => ?_
      by_cases stays : w ∈ waiting
      · exact now w stays named
      · obtain ⟨same, real⟩ := seen w old stays
        have same := (same.trans (fits.2.resolve_left real).symm).symm.trans named
        exact absurd (good.same_lease mem (mem_of_mem_erase left) same).symm (other left)
    owned := fun r member => by
      obtain rfl | old := mem_cons.mp member
      · exact fits.1.symm
      · exact good.owned r old }

theorem Table.Good.fail (step : t.fail i = some t') : t'.Good := by
  obtain ⟨w, ours, step⟩ := Option.bind_eq_some_iff.mp step
  obtain ⟨before, after, split, -, erased⟩ := around ours
  have separate := good.separate
  rw [split, map_append, map_cons] at separate
  have real := (good.waits ours).1
  refine good.unlink (eraseIdx_sublist ..) ?_ ?_ step
  · intro m _ _ same v member
    have same := same.resolve_left real
    rw [erased] at member
    rw [same]
    intro equal
    have twice := (nodup_middle.mp separate)
    refine (nodup_cons.mp twice).1 ?_
    rw [← map_append, ← equal]
    exact mem_map_of_mem member
  · intro v old absent
    rw [erased] at absent
    rw [split] at old
    obtain early | rfl | late := by simpa using old
    · exact absurd (mem_append_left _ early) absent
    · exact ⟨rfl, real⟩
    · exact absurd (mem_append_right _ late) absent

/-- A thread that is in no `BEGIN` has none waiting on its leases. -/
theorem Table.Good.unlink_own (free : t.waiting.any (·.owner = owner) = false)
    (step : t.unlink token owner = some t') : t'.Good := by
  refine good.unlink (List.Sublist.refl _) ?_ (fun w old absent => absurd old absent) step
  intro l mem mine _ w old same
  obtain ⟨m, there, token, owner⟩ := good.waiting w old
  cases good.same_lease there mem (token.trans same)
  have waits : t.waiting.any (·.owner = _) = true :=
    any_eq_true.mpr ⟨w, old, by simpa using owner.symm.trans mine⟩
  cases free.symm.trans waits

end

/-! ## Every step -/

/-- A context whose address has a slot is forgotten only when the notes of all contexts of the
address were counted. -/
def Cleared (t : Table) : Act → Prop
  | .forget i => ∀ c, t.contexts[i]? = some c → t.Named c.mm.address →
      ∀ d ∈ t.contexts, d.mm.address = c.mm.address → d.counted = true
  | _ => True

theorem Table.Good.next (good : t.Good) (cleared : Cleared t act) (step : t.next act = some t') :
    t'.Good := by
  cases act with
  | note mm =>
    cases step
    exact good.note mm
  | forget i => exact good.forgetContext cleared step
  | pin mm | recallBegin mm => exact good.hold step
  | unpin i => exact good.unpin step
  | enter i => exact good.enter step
  | leave i => exact good.leave step
  | begin owner mm mmId => exact good.begin step
  | observe i => exact good.observe step
  | succeed i => exact good.succeed step
  | fail i => exact good.fail step
  | finish token owner =>
    simp only [Table.next, Table.finish] at step
    split at step
    · cases step
    case isFalse free =>
      obtain ⟨-, free⟩ := not_or.mp free
      exact good.unlink_own (by simpa using free) step
  | exit owner =>
    simp only [Table.next, Table.exit] at step
    split at step
    · cases step
    case isFalse free => exact good.unlink_own (by simpa using free) step

theorem Table.new_good : Table.new.Good where
  books := by
    have free (i : Nat) (s : Slot) (a : Nat) (here : Table.new.slots[i]? = some s) :
        s.mm ≠ some a := by
      have mem := mem_of_getElem? here
      rw [eq_of_mem_replicate mem]
      exact nofun
    exact {
      unique := fun i _ s _ a here _ names => absurd names (free i s a here)
      right := fun i s a here names => absurd names (free i s a here)
      present := fun a held => by
        obtain held | held := held
        · exact absurd rfl held
        · exact absurd rfl held }
  anchored _ _ := fun ⟨_, here, _⟩ => nomatch here
  placed _ here := nomatch here
  tokens := .refl _
  waiting _ here := nomatch here
  separate := nodup_nil
  resting _ here := nomatch here
  owned _ here := nomatch here

theorem reached_good (run : Reach (Guarded Cleared (Computed Table.next)) .new t) : t.Good :=
  run.invariant (fun _ _ _ good step => good.next step.1 step.2) Table.new_good

/-! ## What it gives -/

def Act.ofLease : Act → Bool
  | .begin .. | .observe _ | .succeed _ | .fail _ | .finish .. | .exit _ => true
  | _ => false

/-- The other steps leave the leases alone. -/
theorem Table.next_leases (other : act.ofLease = false) (step : t.next act = some t') :
    t'.leases = t.leases ∧ t'.waiting = t.waiting ∧ t'.released = t.released := by
  cases act <;> simp only [Table.next, Act.ofLease, Bool.true_eq_false] at step other
  case note mm =>
    cases step
    simp only [Table.note]
    (repeat' split) <;> exact ⟨rfl, rfl, rfl⟩
  all_goals grind [Table.forgetContext, Table.forget, Table.pin, Table.recallBegin, Table.hold,
    Table.unpin, Table.enter, Table.leave, Table.modify, Option.bind_eq_some_iff]

/-- What the counts of a slot say, and what a lease guarantees. -/
structure Table.Contract (t : Table) : Prop where
  /-- The pause count of a slot is the number of its leases. -/
  paused : ∀ (i : Nat) (s : Slot) (a : Nat), t.slots[i]? = some s → s.mm = some a →
    s.paused = t.leases.countP fun l => l.slot == i
  /-- And its running count is the number of tasks between enter and leave. -/
  running : ∀ (i : Nat) (s : Slot) (a : Nat), t.slots[i]? = some s → s.mm = some a →
    s.running = t.contexts.countP fun c => c.running && c.mm.address == a
  /-- Its references are its counted contexts, its pins and its leases. -/
  pinned : ∀ (i : Nat) (s : Slot) (a : Nat), t.slots[i]? = some s → s.mm = some a →
    s.n = t.holders a
  /-- Under a lease whose `BEGIN` has returned, no task of the address space runs. -/
  excluded : ∀ l ∈ t.leases, (∀ w ∈ t.waiting, w.token ≠ l.token) →
    ∀ c ∈ t.contexts, c.mm.address = l.mm.address → c.running = false
  /-- Every lease that was given out is live or was released once. -/
  once : ∀ token, 1 ≤ token → token ≤ t.quiesceNext →
    (t.leases.map (·.token)).count token + (t.released.map (·.token)).count token = 1
  /-- A lease is released by its owner. -/
  owned : ∀ r ∈ t.released, r.caller = r.owner
  /-- A failed `BEGIN` leaves no lease. -/
  failed : ∀ (i : Nat) (w : Waiting), t.waiting[i]? = some w →
    ∃ t', t.fail i = some t' ∧ ∀ l ∈ t'.leases, l.token ≠ w.token
  /-- `END` finds the caller's lease of its token, and leaves none. -/
  ended : ∀ token owner t', t.finish token owner = some t' →
    (∃ l ∈ t.leases, l.token = token ∧ l.owner = owner) ∧ ∀ l ∈ t'.leases, l.token ≠ token
  /-- A lease goes by its owner's `END` of its token, by the failure of the `BEGIN` that made it or
  by its owner's exit, and is noted as released then. -/
  leaves : ∀ act t', t.next act = some t' → ∀ l ∈ t.leases, l ∈ t'.leases ∨
    t'.released = ⟨l.token, l.owner, l.owner⟩ :: t.released ∧
      (act = .finish l.token l.owner ∨ act = .exit l.owner ∨
        ∃ (i : Nat) (w : Waiting), act = .fail i ∧ t.waiting[i]? = some w ∧ w.token = l.token)

theorem Table.Good.paused (good : t.Good) (here : t.slots[i]? = some s) (names : s.mm = some a) :
    s.paused = t.leases.countP fun l => l.slot == i := by
  rw [(good.books.right i s a here names).2.2]
  refine countP_congr fun l mem => ?_
  obtain ⟨u, there, address⟩ := good.placed l mem
  simp only [beq_iff_eq]
  constructor
  · rintro rfl
    exact good.alone here names l.slot u there address
  · rintro rfl
    cases here.symm.trans there
    exact Option.some.inj (address.symm.trans names)

/-- The lease that is unlinked under a token is the only one of it. -/
theorem Table.Good.unlinked (good : t.Good) (real : token ≠ 0)
    (step : Table.unlink { t with waiting } token owner = some t') :
    (∃ l ∈ t.leases, l.token = token ∧ l.owner = owner) ∧ ∀ l ∈ t'.leases, l.token ≠ token := by
  obtain ⟨m, first, rfl⟩ := Option.map_eq_some_iff.mp step
  have mem := mem_of_find?_eq_some first
  have fits := List.find?_some first
  simp only [decide_eq_true_eq] at fits
  have named := fits.2.resolve_left real
  have nodup := (good.tokens.nodup_iff.mpr nodup_range').of_append_left
  refine ⟨⟨m, mem, named, fits.1⟩, fun k left same => ?_⟩
  have left : k ∈ t.leases.erase m := left
  cases good.same_lease (mem_of_mem_erase left) mem (same.trans named.symm)
  exact (List.Nodup.of_map _ nodup).not_mem_erase left

theorem Table.Good.failed (good : t.Good) (ours : t.waiting[i]? = some w) :
    ∃ t', t.fail i = some t' ∧ ∀ l ∈ t'.leases, l.token ≠ w.token := by
  obtain ⟨real, l, mem, token, owner⟩ := good.waits ours
  have found : (t.leases.find? fun l => l.owner = w.owner ∧
      (w.token = 0 ∨ l.token = w.token)).isSome = true :=
    List.find?_isSome.mpr ⟨l, mem, by simp [token, owner]⟩
  have some : (t.fail i).isSome = true := by
    simp only [Table.fail, ours, Option.bind_some, Table.unlink, Option.isSome_map, found]
  obtain ⟨t', step⟩ := Option.isSome_iff_exists.mp some
  refine ⟨t', step, ?_⟩
  simp only [Table.fail, ours, Option.bind_some] at step
  exact (good.unlinked real step).2

theorem unlink_leaves (step : Table.unlink { t with waiting } token owner = some t')
    (mem : l ∈ t.leases) :
    l ∈ t'.leases ∨ t'.released = ⟨l.token, l.owner, l.owner⟩ :: t.released ∧ l.owner = owner ∧
      (token = 0 ∨ l.token = token) := by
  obtain ⟨m, first, rfl⟩ := Option.map_eq_some_iff.mp step
  have fits := List.find?_some first
  simp only [decide_eq_true_eq] at fits
  by_cases same : l = m
  · subst same
    refine .inr ⟨?_, fits⟩
    show _ :: t.released = _
    rw [fits.1]
  · exact .inl ((mem_erase_of_ne same).mpr mem)

theorem Table.Good.leaves (good : t.Good) (step : t.next act = some t') (mem : l ∈ t.leases) :
    l ∈ t'.leases ∨
      t'.released = ⟨l.token, l.owner, l.owner⟩ :: t.released ∧
        (act = .finish l.token l.owner ∨ act = .exit l.owner ∨
          ∃ (i : Nat) (w : Waiting), act = .fail i ∧ t.waiting[i]? = some w ∧
            w.token = l.token) := by
  by_cases other : act.ofLease = false
  · rw [(Table.next_leases other step).1]
    exact .inl mem
  cases act with
  | begin owner mm mmId =>
    left
    grind [Table.next, Table.begin, Table.modify, Option.bind_eq_some_iff]
  | observe i =>
    left
    grind [Table.next, Table.observe, Option.bind_eq_some_iff]
  | succeed i =>
    left
    grind [Table.next, Table.succeed]
  | fail i =>
    obtain ⟨w, ours, step⟩ := Option.bind_eq_some_iff.mp step
    obtain stays | ⟨released, -, token⟩ := unlink_leaves step mem
    · exact .inl stays
    · have token := token.resolve_left (good.waits ours).1
      exact .inr ⟨released, .inr (.inr ⟨i, w, rfl, ours, token.symm⟩)⟩
  | finish token owner =>
    simp only [Table.next, Table.finish] at step
    obtain ⟨free, step⟩ := Option.ite_none_left_eq_some.mp step
    obtain stays | ⟨released, same, token⟩ := unlink_leaves step mem
    · exact .inl stays
    · refine .inr ⟨released, .inl ?_⟩
      rw [same, token.resolve_left (not_or.mp free).1]
  | exit owner =>
    simp only [Table.next, Table.exit] at step
    obtain ⟨-, step⟩ := Option.ite_none_left_eq_some.mp step
    obtain stays | ⟨released, same, -⟩ := unlink_leaves step mem
    · exact .inl stays
    · exact .inr ⟨released, .inr (.inl (by rw [same]))⟩
  | _ => exact absurd rfl other

theorem Table.Good.contract (good : t.Good) : t.Contract where
  paused _ _ _ := good.paused
  running i s a here names := (good.books.right i s a here names).2.1
  pinned i s a here names := (good.books.right i s a here names).1
  excluded l mem returned c there address := by
    have rest := good.resting l mem fun w old named => absurd named (returned w old)
    cases flag : c.running with
    | false => rfl
    | true =>
      have some := countP_eq_zero.mp rest c there
      simp [flag, address] at some
  once token low high := by
    have count := good.tokens.count_eq token
    rw [count_append] at count
    rw [count, count_eq_one_of_mem nodup_range']
    rw [mem_range'_1]
    omega
  owned := good.owned
  failed _ _ := good.failed
  ended token owner t' step := by
    simp only [Table.finish] at step
    obtain ⟨free, step⟩ := Option.ite_none_left_eq_some.mp step
    exact good.unlinked (not_or.mp free).1 step
  leaves _ _ step _ := good.leaves step

end Vmctx.Slots
