import Vmctx.Slots.Leases
/-!
# The life of a slot

A note that finds no room is dropped, and the context goes on; when it is forgotten later, the
address is searched again. A slot that another context of the address space has obtained in the
meantime loses a reference that was never taken, and may be destroyed under that context.

A slot also outlives its `mm_struct` in an exec, up to `vmctx_exec_notify`, where nothing else keeps
that: pins and leases do, and so does a context that has run and is attached to it, but not one that
is adopted while it executes the call. An `mm_struct` that is then allocated at the same address
takes the slot over with its identity.

Where neither happens and no count wraps, a slot is destroyed only when nothing holds its address
any more, and an identity is that of one address space.
-/

namespace Vmctx.Slots

open Vmctx.System List

variable {t t' : Table} {a i : Nat} {mm : Mm} {act : Act}

/-- A counted context, a pin or a lease holds the address space. -/
def Table.Kept (t : Table) (mm : Mm) : Prop :=
  (∃ c ∈ t.contexts, c.counted = true ∧ c.mm = mm) ∨ mm ∈ t.pins ∨ ∃ l ∈ t.leases, l.mm = mm

/-- Nothing of an address is left. -/
structure Table.Clear (t : Table) (a : Nat) : Prop where
  contexts : ∀ c ∈ t.contexts, c.mm.address ≠ a
  pins : ∀ mm ∈ t.pins, mm.address ≠ a
  leases : ∀ l ∈ t.leases, l.mm.address ≠ a

/-- The address space that a step takes up. -/
def Act.uses : Act → Option Mm
  | .note mm => some mm
  | .pin mm => some mm
  | .recallBegin mm => some mm
  | .begin _ mm _ => some mm
  | _ => none

/-- The address whose slot a step gives a reference without checking the count. -/
def Act.unchecked : Act → Option Nat
  | .note mm => some mm.address
  | .recallBegin mm => some mm.address
  | _ => none

/-- When a step of the table is safe. -/
structure Timely (t : Table) (act : Act) : Prop where
  /-- A new slot is taken when no context of the address space is left whose note was dropped. -/
  dropped : ∀ mm, act = .note mm → t.slotOf mm.address = none → (∃ s ∈ t.slots, s.mm = none) →
    ∀ c ∈ t.contexts, c.mm.address = mm.address → c.counted = true
  /-- No `mm_struct` that is still held has the address of another one that is taken up. -/
  alone : ∀ mm, act.uses = some mm → ∀ m, t.Kept m → m.address = mm.address → m = mm
  /-- A count that is raised without a check does not wrap. -/
  references : ∀ b, act.unchecked = some b → ∀ (i : Nat) (s : Slot), t.slots[i]? = some s →
    s.mm = some b → s.n < intMax
  /-- Nor do identities. -/
  identities : ∀ mm, act = .note mm → t.traceNext < u64Max

/-! ## What a step does -/

/-- The count of a slot that stays that of an address: it may fall, and it may rise by one that is
checked or that the step takes without a check. -/
def Counts (act : Act) (b : Nat) (s s' : Slot) : Prop :=
  (0 < s.n → 0 < s'.n) ∧
    (s'.n ≤ s.n ∨ s'.n = s.n + 1 ∧ (s.n ≠ intMax ∨ act.unchecked = some b))

/-- What a step does to the slots' identities and to those that hold them. -/
structure Turn (t : Table) (act : Act) (t' : Table) : Prop where
  slots : ∀ (j : Nat) (s' : Slot) (b : Nat), t'.slots[j]? = some s' → s'.mm = some b →
    (∃ s, t.slots[j]? = some s ∧ s.mm = some b ∧ s.traceId = s'.traceId ∧ Counts act b s s') ∨
      s'.traceId = t.traceNext + 1 ∧ t'.traceNext = t.traceNext + 1 ∧ t.slotOf b = none ∧
        (∃ s ∈ t.slots, s.mm = none) ∧ s'.n = 1 ∧ ∃ mm, act = .note mm ∧ mm.address = b
  traceNext : t'.traceNext = t.traceNext ∨
    t'.traceNext = t.traceNext + 1 ∧ ∃ mm, act = .note mm
  grows : ∀ p ∈ t.named, p ∈ t'.named
  named : ∀ x m, (x, m) ∈ t'.named → (x, m) ∈ t.named ∨ act.uses = some m ∧
    ∃ (j : Nat) (s' : Slot), t'.slots[j]? = some s' ∧ s'.mm = some m.address ∧ s'.traceId = x
  kept : ∀ m, t'.Kept m → t.Kept m ∨
    ∃ (j : Nat) (s' : Slot), t'.slots[j]? = some s' ∧ s'.mm = some m.address ∧
      (s'.traceId, m) ∈ t'.named
  contexts : ∀ c' ∈ t'.contexts, (∃ c ∈ t.contexts, c.mm = c'.mm ∧ c.counted = c'.counted) ∨
    c'.counted = true ∨ ¬t.Named c'.mm.address ∧ ¬t'.Named c'.mm.address

variable {f : Slot → Slot} {j k : Nat} {s' s : Slot} {contexts : List Context} {m : Mm}

theorem modify_from {slots : List Slot} (there : (slots.modify i f)[j]? = some s') :
    ∃ s, slots[j]? = some s ∧ (s' = s ∨ j = i ∧ s' = f s) := by
  rw [List.getElem?_modify] at there
  obtain ⟨s, here, rfl⟩ := Option.map_eq_some_iff.mp there
  refine ⟨s, here, ?_⟩
  split
  · next same => exact .inr ⟨same.symm, rfl⟩
  · exact .inl rfl

/-- A slot that a step changes and that stays that of an address keeps its identity, and its count
does not rise. -/
def Lasts (f : Slot → Slot) : Prop :=
  ∀ s b, (f s).mm = some b →
    s.mm = some b ∧ s.traceId = (f s).traceId ∧ (0 < s.n → 0 < (f s).n) ∧ (f s).n ≤ s.n

theorem Turn.quiet (slots : t'.slots = t.slots.modify i f) (lasts : Lasts f)
    (traceNext : t'.traceNext = t.traceNext) (named : t'.named = t.named)
    (kept : ∀ m, t'.Kept m → t.Kept m)
    (contexts : ∀ c' ∈ t'.contexts, ∃ c ∈ t.contexts, c.mm = c'.mm ∧ c.counted = c'.counted) :
    Turn t act t' where
  slots j s' b there names := by
    obtain ⟨s, here, rfl | ⟨-, rfl⟩⟩ := modify_from (slots ▸ there)
    · exact .inl ⟨s', here, names, rfl, id, .inl (Nat.le_refl _)⟩
    · obtain ⟨was, trace, positive, fewer⟩ := lasts s b names
      exact .inl ⟨s, here, was, trace, positive, .inl fewer⟩
  traceNext := .inl traceNext
  grows _ old := named ▸ old
  named _ _ here := .inl (named ▸ here)
  kept m here := .inl (kept m here)
  contexts c' here := .inl (contexts c' here)

/-- The slot that a step takes up gets a reference. -/
def Gains (f : Slot → Slot) : Prop :=
  ∀ s, (f s).mm = s.mm ∧ (f s).traceId = s.traceId ∧ (f s).n = s.n + 1

theorem Turn.used (uses : act.uses = some mm) (here : t.slots[i]? = some s)
    (names : s.mm = some mm.address) (slots : t'.slots = t.slots.modify i f) (gains : Gains f)
    (room : s.n ≠ intMax ∨ act.unchecked = some mm.address) (traceNext : t'.traceNext = t.traceNext)
    (named : t'.named = (s.traceId, mm) :: t.named) (kept : ∀ m, t'.Kept m → t.Kept m ∨ m = mm)
    (contexts : ∀ c' ∈ t'.contexts, c' ∈ t.contexts ∨ c'.counted = true) : Turn t act t' := by
  have slot : t'.slots[i]? = some (f s) := by rw [slots, modified here, if_pos rfl]
  obtain ⟨address, trace, count⟩ := gains s
  exact {
    slots := fun j s' b there also => by
      obtain ⟨u, old, rfl | ⟨rfl, rfl⟩⟩ := modify_from (slots ▸ there)
      · exact .inl ⟨s', old, also, rfl, id, .inl (Nat.le_refl _)⟩
      · cases here.symm.trans old
        cases also.symm.trans (address.trans names)
        exact .inl ⟨s, here, names, trace.symm, fun _ => by omega, .inr ⟨count, room⟩⟩
    traceNext := .inl traceNext
    grows := fun p old => named ▸ mem_cons_of_mem _ old
    named := fun x m now => by
      rw [named] at now
      obtain new | old := mem_cons.mp now
      · cases new
        exact .inr ⟨uses, i, f s, slot, address.trans names, trace⟩
      · exact .inl old
    kept := fun m now => by
      obtain old | rfl := kept m now
      · exact .inl old
      · refine .inr ⟨i, f s, slot, address.trans names, ?_⟩
        rw [named, trace]
        exact mem_cons_self
    contexts := fun c' now => by
      obtain old | counted := contexts c' now
      · exact .inl ⟨c', old, rfl, rfl⟩
      · exact .inr (.inl counted) }

theorem lasts_id : Lasts id := fun _ _ names => ⟨names, rfl, id, Nat.le_refl _⟩

theorem Table.forget_keeps (t : Table) (a : Nat) : ∃ (i : Nat) (f : Slot → Slot),
    (t.forget a).slots = t.slots.modify i f ∧ Lasts f := by
  simp only [Table.forget]
  split
  · exact ⟨0, id, (modify_id 0 t.slots).symm, lasts_id⟩
  · next i _ =>
    refine ⟨i, _, rfl, fun s b names => ?_⟩
    split at names
    · next more =>
      rw [if_pos more]
      exact ⟨names, rfl, fun _ => more, Nat.sub_le ..⟩
    · cases names

theorem Turn.unlink {token owner : Nat} {waiting : List Waiting}
    (step : Table.unlink { t with waiting } token owner = some t') : Turn t act t' := by
  obtain ⟨l, found, rfl⟩ := Option.map_eq_some_iff.mp step
  have mem : l ∈ t.leases := mem_of_find?_eq_some found
  refine .quiet rfl (fun _ _ => lasts_id _ _) rfl rfl ?_ fun c here => ⟨c, here, rfl, rfl⟩
  rintro m (counted | pinned | ⟨k, left, rfl⟩)
  · exact .inl counted
  · obtain rfl | old := mem_cons.mp pinned
    · exact .inr (.inr ⟨l, mem, rfl⟩)
    · exact .inr (.inl old)
  · exact .inr (.inr ⟨k, mem_of_mem_erase left, rfl⟩)

theorem Turn.note (t : Table) (mm : Mm) : Turn t (.note mm) (t.note mm) := by
  have kept {c : Context} {m : Mm} (same : c.mm = mm)
      (now : (∃ d ∈ c :: t.contexts, d.counted = true ∧ d.mm = m) ∨ m ∈ t.pins ∨
        ∃ l ∈ t.leases, l.mm = m) : t.Kept m ∨ c.counted = true ∧ m = mm := by
    obtain ⟨d, here, counted, rfl⟩ | rest := now
    · obtain rfl | old := mem_cons.mp here
      · exact .inr ⟨counted, same⟩
      · exact .inl (.inl ⟨d, old, counted, rfl⟩)
    · exact .inl (.inr rest)
  simp only [Table.note]
  split
  · next i found =>
    obtain ⟨s, here, names⟩ := Table.slotOf_some found
    refine .used rfl here names rfl (fun _ => ⟨rfl, rfl, rfl⟩) (.inr rfl) rfl ?_ ?_ ?_
    · simp [here]
    · exact fun m now => (kept rfl now).imp_right And.right
    · intro c' now
      obtain rfl | old := mem_cons.mp now
      · exact .inr rfl
      · exact .inl old
  · next absent =>
    split
    · next i free =>
      obtain ⟨s, here, empty⟩ : ∃ s, t.slots[i]? = some s ∧ s.mm = none := by
        obtain ⟨inside, empty, -⟩ := List.findIdx?_eq_some_iff_getElem.mp free
        exact ⟨_, List.getElem?_eq_getElem inside, by simpa using empty⟩
      have slots : (t.slots.modify i fun _ => ⟨some mm.address, 1, 0, 0, t.traceNext + 1⟩)[i]? =
          some ⟨some mm.address, 1, 0, 0, t.traceNext + 1⟩ := by
        rw [modified here, if_pos rfl]
      exact {
        slots := fun j s' b there names => by
          have there := there
          simp only [Table.modify, modified here] at there
          split at there
          · cases there
            cases names
            have room : ∃ s ∈ t.slots, s.mm = none := ⟨s, mem_of_getElem? here, empty⟩
            exact .inr ⟨rfl, rfl, absent, room, rfl, mm, rfl, rfl⟩
          · exact .inl ⟨s', there, names, rfl, id, .inl (Nat.le_refl _)⟩
        traceNext := .inr ⟨rfl, mm, rfl⟩
        grows := fun p old => mem_cons_of_mem _ old
        named := fun x m now => by
          obtain new | old := mem_cons.mp now
          · cases new
            exact .inr ⟨rfl, i, _, slots, rfl, rfl⟩
          · exact .inl old
        kept := fun m now => by
          obtain old | ⟨-, rfl⟩ := kept rfl now
          · exact .inl old
          · exact .inr ⟨i, _, slots, rfl, mem_cons_self⟩
        contexts := fun c' now => by
          obtain rfl | old := mem_cons.mp now
          · exact .inr (.inl rfl)
          · exact .inl ⟨c', old, rfl, rfl⟩ }
    · exact {
        slots := fun j s' b there names => .inl ⟨s', there, names, rfl, id, .inl (Nat.le_refl _)⟩
        traceNext := .inl rfl
        grows := fun p old => old
        named := fun x m now => .inl now
        kept := fun m now => by
          obtain old | ⟨counted, -⟩ := kept rfl now
          · exact .inl old
          · cases counted
        contexts := fun c' now => by
          obtain rfl | old := mem_cons.mp now
          · exact .inr (.inr ⟨Table.slotOf_none absent, Table.slotOf_none absent⟩)
          · exact .inl ⟨c', old, rfl, rfl⟩ }

theorem set_running {c d : Context} {flag : Bool} (here : contexts[i]? = some c)
    (now : d ∈ contexts.set i { c with running := flag }) :
    ∃ e ∈ contexts, e.mm = d.mm ∧ e.counted = d.counted := by
  obtain old | rfl := mem_or_eq_of_mem_set now
  · exact ⟨d, old, rfl, rfl⟩
  · exact ⟨c, mem_of_getElem? here, rfl, rfl⟩

theorem Table.kept_of_contexts
    (sub : ∀ c' ∈ contexts, ∃ c ∈ t.contexts, c.mm = c'.mm ∧ c.counted = c'.counted) (m : Mm)
    (now : Table.Kept { t with contexts } m) : t.Kept m := by
  obtain ⟨c', here, counted, rfl⟩ | rest := now
  · obtain ⟨c, old, same, flag⟩ := sub c' here
    exact .inl ⟨c, old, flag.trans counted, same⟩
  · exact .inr rest

theorem Turn.hold {checked : Bool} (uses : act.uses = some mm)
    (room : ∀ {s : Slot}, ¬(checked = true ∧ s.n = intMax) →
      s.n ≠ intMax ∨ act.unchecked = some mm.address)
    (step : t.hold mm checked = some t') : Turn t act t' := by
  obtain ⟨j, found, step⟩ := Option.bind_eq_some_iff.mp step
  obtain ⟨s, here, names⟩ := Table.slotOf_some found
  simp only [here] at step
  obtain ⟨full, step⟩ := Option.ite_none_left_eq_some.mp step
  cases step
  refine .used uses here names rfl (fun _ => ⟨rfl, rfl, rfl⟩) (room full) rfl rfl ?_
    fun c now => .inl now
  rintro m (counted | pinned | leased)
  · exact .inl (.inl counted)
  · obtain same | old := mem_cons.mp pinned
    · exact .inr same
    · exact .inl (.inr (.inl old))
  · exact .inl (.inr (.inr leased))

theorem Table.turn (step : t.next act = some t') : Turn t act t' := by
  cases act with
  | note mm =>
    cases step
    exact .note t mm
  | forget i =>
    obtain ⟨c, -, step⟩ := Option.bind_eq_some_iff.mp step
    split at step
    · cases step
    cases step
    obtain ⟨j, f, slots, keeps⟩ := t.forget_keeps c.mm.address
    have sub (c' : Context) (left : c' ∈ t.contexts.eraseIdx i) :
        ∃ c ∈ t.contexts, c.mm = c'.mm ∧ c.counted = c'.counted :=
      ⟨c', mem_of_mem_eraseIdx left, rfl, rfl⟩
    rw [Table.forget_eq]
    exact .quiet slots keeps rfl rfl (Table.kept_of_contexts sub) sub
  | pin mm => exact .hold rfl (fun full => .inl fun n => full ⟨rfl, n⟩) step
  | recallBegin mm => exact .hold rfl (fun _ => .inr rfl) step
  | unpin i =>
    obtain ⟨mm, -, rfl⟩ := Option.map_eq_some_iff.mp step
    obtain ⟨j, f, slots, keeps⟩ := t.forget_keeps mm.address
    rw [Table.forget_eq]
    refine .quiet slots keeps rfl rfl ?_ fun c here => ⟨c, here, rfl, rfl⟩
    rintro m (counted | pinned | leased)
    · exact .inl counted
    · exact .inr (.inl (mem_of_mem_eraseIdx pinned))
    · exact .inr (.inr leased)
  | enter i =>
    obtain ⟨c, here, step⟩ := Option.bind_eq_some_iff.mp step
    obtain ⟨j, -, step⟩ := Option.bind_eq_some_iff.mp step
    split at step
    · cases step
    split at step
    · cases step
    cases step
    exact .quiet rfl (fun _ _ => lasts_id _ _) rfl rfl
      (Table.kept_of_contexts fun _ => set_running here) fun _ => set_running here
  | leave i =>
    obtain ⟨c, here, step⟩ := Option.bind_eq_some_iff.mp step
    split at step
    · cases step
    split at step
    · cases step
      exact .quiet (modify_id 0 t.slots).symm lasts_id rfl rfl
        (Table.kept_of_contexts fun _ => set_running here) fun _ => set_running here
    · cases step
      exact .quiet rfl (fun _ _ => lasts_id _ _) rfl rfl
        (Table.kept_of_contexts fun _ => set_running here) fun _ => set_running here
  | begin owner mm mmId =>
    simp only [Table.next, Table.begin] at step
    split at step
    · cases step
    obtain ⟨j, found, step⟩ := Option.bind_eq_some_iff.mp step
    obtain ⟨s, here, names⟩ := Table.slotOf_some found
    simp only [here] at step
    split at step
    · cases step
    obtain ⟨full, step⟩ := Option.ite_none_left_eq_some.mp step
    cases step
    refine .used rfl here names rfl (fun _ => ⟨rfl, rfl, rfl⟩) (.inl fun n => ?_) rfl rfl ?_
      fun c now => .inl now
    · exact full (.inr (.inl n))
    rintro m (counted | pinned | ⟨l, there, rfl⟩)
    · exact .inl (.inl counted)
    · exact .inl (.inr (.inl pinned))
    · obtain old | new := mem_append.mp there
      · exact .inl (.inr (.inr ⟨l, old, rfl⟩))
      · cases mem_singleton.mp new
        exact .inr rfl
  | observe i =>
    obtain ⟨w, -, step⟩ := Option.bind_eq_some_iff.mp step
    obtain ⟨l, -, step⟩ := Option.bind_eq_some_iff.mp step
    obtain ⟨s, -, step⟩ := Option.bind_eq_some_iff.mp step
    split at step
    · cases step
    cases step
    exact .quiet (modify_id 0 t.slots).symm lasts_id rfl rfl
      (fun _ now => now) fun c here => ⟨c, here, rfl, rfl⟩
  | succeed i =>
    simp only [Table.next, Table.succeed] at step
    split at step
    · cases step
      exact .quiet (modify_id 0 t.slots).symm lasts_id rfl rfl
        (fun _ now => now) fun c here => ⟨c, here, rfl, rfl⟩
    · cases step
  | fail i =>
    obtain ⟨w, -, step⟩ := Option.bind_eq_some_iff.mp step
    exact .unlink step
  | finish token owner =>
    simp only [Table.next, Table.finish] at step
    split at step
    · cases step
    exact .unlink step
  | exit owner =>
    simp only [Table.next, Table.exit] at step
    split at step
    · cases step
    exact .unlink step

/-! ## The invariant -/

/-- The slots that are used are those of the address spaces that are kept, under their identity. -/
structure Table.Living (t : Table) : Prop where
  good : t.Good
  counted : ∀ c ∈ t.contexts, t.Named c.mm.address → c.counted = true
  known : ∀ m, t.Kept m → ∀ (i : Nat) (s : Slot), t.slots[i]? = some s →
    s.mm = some m.address → (s.traceId, m) ∈ t.named
  counts : ∀ (i : Nat) (s : Slot) (b : Nat), t.slots[i]? = some s → s.mm = some b →
    0 < s.n ∧ s.n ≤ intMax
  traces : ∀ (i : Nat) (s : Slot) (b : Nat), t.slots[i]? = some s → s.mm = some b →
    s.traceId ≤ t.traceNext
  limited : t.traceNext ≤ u64Max
  bounded : ∀ p ∈ t.named, p.1 ≤ t.traceNext
  single : ∀ x m m', (x, m) ∈ t.named → (x, m') ∈ t.named → m = m'

theorem Table.Good.kept_named (good : t.Good) (kept : t.Kept m) : t.Named m.address := by
  refine good.books.present _ (.inl ?_)
  obtain ⟨c, here, counted, rfl⟩ | pinned | ⟨l, mem, rfl⟩ := kept
  · exact Table.counted_holds here counted
  · have positive : 0 < t.pins.countP fun mm => mm.address == m.address :=
      countP_pos_iff.mpr ⟨m, pinned, by simp⟩
    simp only [Table.holders]
    omega
  · have positive := Table.lease_holds mem
    have fewer := t.leased_le l.mm.address
    omega

theorem Table.exists_kept (held : t.holders a ≠ 0) : ∃ m, t.Kept m ∧ m.address = a := by
  by_contra none
  refine held ?_
  simp only [Table.holders, Nat.add_eq_zero_iff, countP_eq_zero]
  refine ⟨⟨fun c here names => ?_, fun m here names => ?_⟩, fun l here names => ?_⟩
  · simp only [Bool.and_eq_true, beq_iff_eq] at names
    exact none ⟨c.mm, .inl ⟨c, here, names.1, rfl⟩, names.2⟩
  · exact none ⟨m, .inr (.inl here), beq_iff_eq.mp names⟩
  · exact none ⟨l.mm, .inr (.inr ⟨l, here, rfl⟩), beq_iff_eq.mp names⟩

/-- The slot of an address space that is taken up was that of no other. -/
theorem Table.Living.unmistaken (living : t.Living) (timely : Timely t act)
    (uses : act.uses = some mm) (here : t.slots[i]? = some s) (names : s.mm = some mm.address)
    (named : (s.traceId, m) ∈ t.named) : m = mm := by
  have count := (living.good.books.right i s _ here names).1
  have positive := (living.counts i s _ here names).1
  obtain ⟨k, kept, address⟩ := Table.exists_kept (t := t) (a := mm.address) (by omega)
  rw [← timely.alone mm uses k kept address]
  exact living.single _ _ _ named (living.known k kept i s here (address ▸ names))

theorem Table.Living.next (living : t.Living) (timely : Timely t act)
    (step : t.next act = some t') : t'.Living := by
  have turn := Table.turn step
  have cleared : Cleared t act := by
    cases act with
    | forget i =>
      intro c here named d there same
      exact living.counted d there (same ▸ named)
    | _ => exact trivial
  have good : t'.Good := living.good.next cleared step
  have traces : ∀ (i : Nat) (s : Slot) (b : Nat), t'.slots[i]? = some s → s.mm = some b →
      s.traceId ≤ t'.traceNext := by
    intro i s b here names
    obtain ⟨u, there, old, same, -⟩ | ⟨new, next, -⟩ := turn.slots i s b here names
    · have old := living.traces i u b there old
      obtain next | ⟨next, -⟩ := turn.traceNext <;> omega
    · omega
  exact {
    good := good
    counts := fun i s b here names => by
      obtain ⟨u, there, old, -, positive, change⟩ | ⟨-, -, -, -, one, -⟩ :=
        turn.slots i s b here names
      · obtain ⟨some, bound⟩ := living.counts i u b there old
        refine ⟨positive some, ?_⟩
        obtain fewer | ⟨more, room | free⟩ := change
        · omega
        · omega
        · have bound := timely.references b free i u there old
          omega
      · rw [one]
        decide
    limited := by
      have old := living.limited
      obtain same | ⟨more, mm, note⟩ := turn.traceNext
      · omega
      · have bound := timely.identities mm note
        omega
    counted := fun c' here ⟨j, s', there, names⟩ => by
      obtain ⟨c, old, same, flag⟩ | counted | ⟨-, absent⟩ := turn.contexts c' here
      · rw [← flag]
        rw [← same] at names
        obtain ⟨s, before, named, -⟩ | ⟨-, -, absent, free, -, mm, rfl, address⟩ :=
          turn.slots j s' _ there names
        · exact living.counted c old ⟨j, s, before, named⟩
        · exact timely.dropped mm rfl (address ▸ absent) free c old address.symm
      · exact counted
      · exact absurd ⟨j, s', there, names⟩ absent
    known := fun m kept j s' there names => by
      obtain old | ⟨k, u, where_, also, named⟩ := turn.kept m kept
      · obtain ⟨s, before, was, same, -⟩ | ⟨-, -, absent, -⟩ := turn.slots j s' _ there names
        · exact turn.grows _ (same ▸ living.known m old j s before was)
        · exact absurd (living.good.kept_named old) (Table.slotOf_none absent)
      · cases good.books.unique j k s' u _ there where_ names also
        cases there.symm.trans where_
        exact named
    traces := traces
    bounded := fun ⟨x, m⟩ named => by
      obtain old | ⟨-, j, s', there, names, rfl⟩ := turn.named x m named
      · have old := living.bounded _ old
        simp only at old ⊢
        obtain next | ⟨next, -⟩ := turn.traceNext <;> omega
      · exact traces j s' _ there names
    single := fun x m m' first second => by
      -- An identity that is used now is new, or the slot is that of the address space.
      have now {m m' : Mm} (uses : act.uses = some m) (j : Nat) (s' : Slot)
          (there : t'.slots[j]? = some s') (names : s'.mm = some m.address)
          (trace : s'.traceId = x) (old : (x, m') ∈ t.named) : m' = m := by
        obtain ⟨s, before, was, same, -⟩ | ⟨new, -⟩ := turn.slots j s' _ there names
        · refine living.unmistaken timely uses before was ?_
          rw [same, trace]
          exact old
        · have bounded := living.bounded _ old
          simp only at bounded
          omega
      obtain old | ⟨uses, j, s', there, names, trace⟩ := turn.named x m first
      · obtain older | ⟨uses, j, s', there, names, trace⟩ := turn.named x m' second
        · exact living.single x m m' old older
        · exact now uses j s' there names trace old
      · obtain older | ⟨also, -⟩ := turn.named x m' second
        · exact (now uses j s' there names trace older).symm
        · exact Option.some.inj (uses.symm.trans also) }

theorem Table.new_living : Table.new.Living where
  good := Table.new_good
  counted _ here := absurd here not_mem_nil
  known m kept := by
    obtain ⟨i, s, here, names⟩ := Table.new_good.kept_named kept
    have mem := mem_of_getElem? here
    rw [eq_of_mem_replicate mem] at names
    cases names
  counts i s b here names := by
    have mem := mem_of_getElem? here
    rw [eq_of_mem_replicate mem] at names
    cases names
  traces i s b here names := by
    have mem := mem_of_getElem? here
    rw [eq_of_mem_replicate mem] at names
    cases names
  limited := Nat.zero_le _
  bounded _ here := absurd here not_mem_nil
  single _ _ _ here := absurd here not_mem_nil

theorem reached_living
    (run : Reach (Guarded Timely (Computed Table.next)) .new t) :
    t.Living :=
  run.invariant (fun _ _ _ living step => living.next step.1 step.2) Table.new_living

/-! ## What it gives -/

/-- A slot that a step takes from its address, or gives another identity, is one that nothing is
left of. -/
theorem Table.Living.destroyed (living : t.Living) (after : t'.Living) (turn : Turn t act t')
    (here : t.slots[i]? = some s) (names : s.mm = some a) (there : t'.slots[i]? = some s')
    (gone : ¬(s'.mm = some a ∧ s'.traceId = s.traceId)) : t'.Clear a := by
  have absent : ¬t'.Named a := by
    rintro ⟨j, u', where_, also⟩
    obtain ⟨u, before, was, same, -⟩ | ⟨-, -, absent, -⟩ := turn.slots j u' a where_ also
    · cases living.good.alone here names j u before was
      cases here.symm.trans before
      cases there.symm.trans where_
      exact gone ⟨also, same.symm⟩
    · exact Table.slotOf_none absent ⟨i, s, here, names⟩
  have unkept (m : Mm) (same : m.address = a) : ¬t'.Kept m := fun kept =>
    absent (same ▸ after.good.kept_named kept)
  exact {
    contexts := fun c' now same => by
      have counted : c'.counted = true := by
        obtain ⟨c, old, address, flag⟩ | counted | ⟨absent, -⟩ := turn.contexts c' now
        · rw [← flag]
          exact living.counted c old ⟨i, s, here, by rw [names, address, same]⟩
        · exact counted
        · exact absurd ⟨i, s, here, by rw [names, same]⟩ absent
      exact unkept c'.mm same (.inl ⟨c', now, counted, rfl⟩)
    pins := fun m pinned same => unkept m same (.inr (.inl pinned))
    leases := fun l mem same => unkept l.mm same (.inr (.inr ⟨l, mem, rfl⟩)) }

/-- How long the slot of an address space lives. -/
structure Table.Lifetime (t : Table) : Prop where
  /-- What is kept has its slot, under an identity that was given to it. -/
  present : ∀ m, t.Kept m → ∃ (i : Nat) (s : Slot), t.slots[i]? = some s ∧
    s.mm = some m.address ∧ (s.traceId, m) ∈ t.named
  /-- A slot that a step takes from its address, or gives another identity, is one that nothing is
  left of. -/
  destroyed : ∀ act t', Timely t act → t.next act = some t' →
    ∀ (i : Nat) (s s' : Slot) (a : Nat), t.slots[i]? = some s → s.mm = some a →
      t'.slots[i]? = some s' → ¬(s'.mm = some a ∧ s'.traceId = s.traceId) → t'.Clear a
  /-- Forgetting a context whose note was dropped touches no slot. -/
  dropped : ∀ (i : Nat) (c : Context) (t' : Table), t.contexts[i]? = some c → c.counted = false →
    t.next (.forget i) = some t' → t'.slots = t.slots
  /-- An identity is that of one address space. -/
  identity : ∀ x m m', (x, m) ∈ t.named → (x, m') ∈ t.named → m = m'
  /-- The counts are those of an `int`, and the identities those of a `u64`. -/
  inRange : ∀ (i : Nat) (s : Slot) (b : Nat), t.slots[i]? = some s → s.mm = some b →
    s.n ≤ intMax ∧ s.traceId ≤ u64Max

theorem Table.Living.lifetime (living : t.Living) : t.Lifetime where
  present m kept := by
    obtain ⟨i, s, here, names⟩ := living.good.kept_named kept
    exact ⟨i, s, here, names, living.known m kept i s here names⟩
  destroyed act t' timely step i s s' a here names there gone :=
    living.destroyed (living.next timely step) (Table.turn step) here names there gone
  dropped i c t' here uncounted step := by
    obtain ⟨d, there, step⟩ := Option.bind_eq_some_iff.mp step
    cases here.symm.trans there
    split at step
    · cases step
    cases step
    have absent : t.slotOf c.mm.address = none := by
      cases found : t.slotOf c.mm.address with
      | none => rfl
      | some j =>
        have counted := living.counted c (mem_of_getElem? here) ⟨j, Table.slotOf_some found⟩
        cases uncounted.symm.trans counted
    simp only [Table.forget, absent]
  identity := living.single
  inRange i s b here names := ⟨(living.counts i s b here names).2,
    Nat.le_trans (living.traces i s b here names) living.limited⟩

/-- In every run of notes, forgettings, pins and leases in which no new slot is taken for an address
space while a dropped note of it is outstanding, no `mm_struct` is taken up at the address of
another one that is still held, and neither a count nor an identity wraps, a slot is there while a
context, a pin or a lease holds it, it is destroyed when nothing of its address is left, forgetting
a dropped note touches no slot, and an identity is given to one address space. -/
theorem slot_lifetime
    (run : Reach (Guarded Timely (Computed Table.next)) .new t) :
    t.Lifetime := (reached_living run).lifetime

/-- The condition on the lists of the table. -/
def Act.fits (t : Table) (act : Act) : Bool :=
  act.uses.all fun mm =>
    t.contexts.all (fun c => c.mm.address != mm.address || c.counted && c.mm == mm) &&
      t.pins.all (fun m => m.address != mm.address || m == mm) &&
      t.leases.all (fun l => l.mm.address != mm.address || l.mm == mm) &&
      t.slots.all (fun s => s.mm != some mm.address || decide (s.n < intMax)) &&
      decide (t.traceNext < u64Max)

theorem Act.unchecked_uses {b : Nat} (free : act.unchecked = some b) :
    ∃ mm, act.uses = some mm ∧ mm.address = b := by
  cases act <;> cases free <;> exact ⟨_, rfl, rfl⟩

theorem Act.fits.timely (fits : act.fits t = true) : Timely t act where
  dropped mm note _ _ c here names := by
    subst note
    simp only [Act.fits, Act.uses, Option.all_some, Bool.and_eq_true, all_eq_true] at fits
    have counted := fits.1.1.1.1 c here
    simp only [names, bne_self_eq_false, Bool.false_or, Bool.and_eq_true] at counted
    exact counted.1
  alone mm uses m kept names := by
    simp only [Act.fits, uses, Option.all_some, Bool.and_eq_true, all_eq_true] at fits
    obtain ⟨c, here, -, rfl⟩ | here | ⟨l, here, rfl⟩ := kept
    · have own := fits.1.1.1.1 c here
      simp only [names, bne_self_eq_false, Bool.false_or, Bool.and_eq_true, beq_iff_eq] at own
      exact own.2
    · simpa [names] using fits.1.1.1.2 m here
    · simpa [names] using fits.1.1.2 l here
  references b free i s here names := by
    obtain ⟨mm, uses, rfl⟩ := Act.unchecked_uses free
    simp only [Act.fits, uses, Option.all_some, Bool.and_eq_true, all_eq_true] at fits
    simpa [names] using fits.1.2 s (mem_of_getElem? here)
  identities mm note := by
    subst note
    simp only [Act.fits, Act.uses, Option.all_some, Bool.and_eq_true] at fits
    exact of_decide_eq_true fits.2

/-! ## The dropped note -/

def filled (k : Nat) : Table where
  slots := (List.range mmSlots).map fun j => if j < k then ⟨some j, 1, 0, 0, j + 1⟩ else .free
  traceNext := k
  quiesceNext := 0
  contexts := (List.range k).reverse.map fun j => ⟨⟨j, 0⟩, true, false⟩
  pins := []
  leases := []
  waiting := []
  released := []
  named := (List.range k).reverse.map fun j => (j + 1, ⟨j, 0⟩)

theorem filled_slot (inside : j < mmSlots) :
    (filled k).slots[j]? = some (if j < k then ⟨some j, 1, 0, 0, j + 1⟩ else .free) := by
  simp only [filled, List.getElem?_map, List.getElem?_range inside, Option.map_some]

theorem filled_note (room : k < mmSlots) : (filled k).note ⟨k, 0⟩ = filled (k + 1) := by
  have absent : (filled k).slotOf k = none := by
    refine List.findIdx?_eq_none_iff.mpr fun s here => ?_
    obtain ⟨j, -, rfl⟩ := mem_map.mp here
    split
    · next below => simpa using Nat.ne_of_lt below
    · rfl
  have free : (filled k).slots.findIdx? (·.mm = none) = some k := by
    refine List.findIdx?_eq_some_iff_getElem.mpr ⟨by simpa [filled] using room, ?_, ?_⟩
    · simp [filled, Slot.free]
    · intro j below
      simp [filled, below]
  have slots : ((filled k).slots.modify k fun _ => ⟨some k, 1, 0, 0, k + 1⟩) =
      (filled (k + 1)).slots := by
    refine ext_getElem? fun j => ?_
    rw [modified (filled_slot room)]
    by_cases inside : j < mmSlots
    · rw [filled_slot inside, filled_slot inside]
      by_cases same : j = k
      · rw [if_pos same, if_pos (by omega), same]
      · rw [if_neg same]
        by_cases below : j < k
        · rw [if_pos below, if_pos (by omega)]
        · rw [if_neg below, if_neg (by omega)]
    · have beyond (l : Nat) : (filled l).slots[j]? = none := by
        simpa [filled] using Nat.le_of_not_lt inside
      rw [if_neg (by omega), beyond, beyond]
  simp only [Table.note, absent, free, Table.modify]
  rw [show (filled k).traceNext = k from rfl, slots]
  simp only [filled, range_succ, reverse_append, reverse_singleton,
    singleton_append, map_cons]

theorem filled_reached (room : k ≤ mmSlots) :
    Reach (Guarded Timely (Computed Table.next)) .new (filled k) := by
  induction k with
  | zero =>
    have slots : (filled 0).slots = Table.new.slots := by
      refine eq_replicate_iff.mpr ⟨by simp [filled], fun s here => ?_⟩
      obtain ⟨j, -, rfl⟩ := mem_map.mp here
      exact if_neg (Nat.not_lt_zero j)
    have empty : filled 0 = Table.new := by
      rw [show filled 0 = { Table.new with slots := (filled 0).slots } from rfl, slots]
    rw [empty]
    exact .refl
  | succ k ih =>
    have next : Computed Table.next (filled k) (.note ⟨k, 0⟩) (filled (k + 1)) :=
      congrArg some (filled_note room)
    have fits : Act.fits (filled k) (.note ⟨k, 0⟩) = true := by
      have small : k < u64Max := Nat.lt_trans room (by decide)
      simp only [Act.fits, Act.uses, filled, Option.all_some, all_map, all_nil,
        Bool.and_true, small, decide_true, Bool.and_eq_true, all_eq_true]
      refine ⟨fun j below => ?_, fun j _ => ?_⟩
      · have other : j ≠ k := by
          have below := mem_range.mp (mem_reverse.mp below)
          omega
        simp [other]
      · by_cases below : j < k
        · simp [below, Nat.ne_of_lt below]
        · simp [below, Slot.free]
    exact (ih (by omega)).step ⟨Act.fits.timely fits, next⟩

/-- A note is dropped and forgotten, another address space goes, and the first one is noted again,
in the slot that has become free; its guard is the last to go. -/
def guardedLast : List Act :=
  [.note ⟨1000, 0⟩, .forget 1, .forget 0, .note ⟨1000, 0⟩, .pin ⟨1000, 0⟩, .forget 0]

/-- The guard that remains keeps the slot from a new owner. -/
theorem slot_lifetime_guarded : ∃ t : Table, t.Lifetime ∧ t.pins = [⟨1000, 0⟩] ∧
    t.contexts.length = 255 ∧ t.slots[255]? = some ⟨some 1000, 1, 0, 0, 257⟩ := by
  have ran : (exec (fun t act => if Act.fits t act then t.next act else none)
      (filled mmSlots) guardedLast).any (fun t => decide (t.pins = [⟨1000, 0⟩] ∧
        t.contexts.length = 255 ∧ t.slots[255]? = some ⟨some 1000, 1, 0, 0, 257⟩)) = true := by
    decide +kernel
  obtain ⟨t, run, shape⟩ := exec_exhibits_guarded ran
  refine ⟨t, slot_lifetime ((filled_reached (Nat.le_refl _)).trans ?_), of_decide_eq_true shape⟩
  exact run.mono fun _ _ _ step => ⟨Act.fits.timely step.1, step.2⟩

/-- A context's note is dropped, another address space goes, and a second context of the first one
obtains its slot. -/
def lateRoom : List Act := [.note ⟨1000, 0⟩, .forget 1, .note ⟨1000, 0⟩]

/-- The context whose note was dropped is forgotten, and the slot is destroyed while the second
context has it noted; and an address space that is noted at the address of a former one, before
that is forgotten, gets its identity. The former one was adopted while it executed an exec: an
attached context would have kept its `mm_struct`. -/
theorem slot_destroyed_in_use :
    (∃ t t' : Table, Reach (Computed Table.next) .new t ∧
      t.contexts.take 2 = [⟨⟨1000, 0⟩, true, false⟩, ⟨⟨1000, 0⟩, false, false⟩] ∧
      t.slots[255]? = some ⟨some 1000, 1, 0, 0, 257⟩ ∧ t.next (.forget 1) = some t' ∧
      t'.slots[255]? = some .free ∧ t'.contexts.head? = some ⟨⟨1000, 0⟩, true, false⟩) ∧
    ∃ t : Table, Reach (Computed Table.next) .new t ∧
      (1, ⟨4096, 0⟩) ∈ t.named ∧ (1, ⟨4096, 1⟩) ∈ t.named := by
  constructor
  · have ran : (exec Table.next (filled mmSlots) lateRoom).any (fun t => decide
        (t.contexts.take 2 = [⟨⟨1000, 0⟩, true, false⟩, ⟨⟨1000, 0⟩, false, false⟩] ∧
          t.slots[255]? = some ⟨some 1000, 1, 0, 0, 257⟩ ∧
          (t.next (.forget 1)).any fun t' => decide (t'.slots[255]? = some .free ∧
            t'.contexts.head? = some ⟨⟨1000, 0⟩, true, false⟩))) = true := by
      decide +kernel
    obtain ⟨t, run, shape⟩ := exec_exhibits ran
    obtain ⟨contexts, slot, last⟩ := of_decide_eq_true shape
    obtain ⟨t', step, after⟩ := (Option.any_eq_true _ _).mp last
    have full := (filled_reached (Nat.le_refl mmSlots)).mono fun _ _ _ step => step.2
    exact ⟨t, t', full.trans run, contexts, slot, step, of_decide_eq_true after⟩
  · have ran : (exec Table.next Table.new [.note ⟨4096, 0⟩, .note ⟨4096, 1⟩]).any
        (fun t => decide ((1, ⟨4096, 0⟩) ∈ t.named ∧ (1, ⟨4096, 1⟩) ∈ t.named)) = true := by
      decide +kernel
    obtain ⟨t, run, shape⟩ := exec_exhibits ran
    exact ⟨t, run, of_decide_eq_true shape⟩

end Vmctx.Slots
