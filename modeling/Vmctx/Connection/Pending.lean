import Mathlib.Data.List.Nodup
import Vmctx.Connection.Retained
import Vmctx.System.Run
/-!
# Calls on a collection

Each call on a collection is a few calls of the adapter for one entry, and an entry is entered by a
`BEGIN` that has succeeded and unlinked by a `FORGET` that has. So every call keeps the invariant,
and so does a run of them.
-/

namespace Vmctx.Connection

open Vmctx.System List

/-! ## The invariant -/

/-- The ticket of an entry is pending, or it was forgotten, or the collection was abandoned. -/
def Held (pending : List Entry) (log : List Issue) (id ticket : Nat) : Prop :=
  (∃ e ∈ pending, e.id = id ∧ e.transfer.ticket = ticket) ∨
    (∃ j ∈ log, j.entry = some id ∧ j.control.op = .forget ∧ j.control.Succeeds ∧
      j.control.ticket = ticket) ∨
    ∃ j ∈ log, j.control.op = .abandon ∧ j.control.Succeeds

structure World.Good (w : World) : Prop where
  count : w.custody.count = w.custody.pending.length
  distinct : (w.custody.pending.map (·.id)).Nodup
  allocated : ∀ e ∈ w.custody.pending, e.id < w.fresh
  named : ∀ i ∈ w.issued, ∀ id, i.entry = some id → id < w.fresh
  known : ∀ e ∈ w.custody.pending, Known w.issued e
  held : ∀ i ∈ w.issued, ∀ q, i.control.op = .begin → i.control.native = .ok q →
    ∃ id, i.entry = some id ∧ Held w.custody.pending w.issued id q.ticket
  open_ : w.custody.closed = false → Open w.issued
  lawful : Lawful w.issued

variable {w : World} {e : Entry} {i : Issue} {log : List Issue} {α : Type}

variable {id ticket self address : Nat} {e' : Entry} {h : Handle} {issued : Option Control}
  {custody c : Collection} {target : Option MmBinding} {native forget : Native}
  {after : World × Outcome}

theorem Held.mono {pending pending' : List Entry} {log' : List Issue}
    (held : Held pending log id ticket) (sub : log ⊆ log')
    (stays : ∀ e ∈ pending, e.id = id → e.transfer.ticket = ticket → Held pending' log' id ticket) :
    Held pending' log' id ticket := by
  obtain ⟨e, mem, same, ticket⟩ | ⟨j, mem, forgotten⟩ | ⟨j, mem, abandoned⟩ := held
  · exact stays e mem same ticket
  · exact .inr (.inl ⟨j, sub mem, forgotten⟩)
  · exact .inr (.inr ⟨j, sub mem, abandoned⟩)

/-! ## Calls -/

theorem Collection.set_ids (c : Collection) (id : Nat) (h : Handle) :
    (c.set id h).pending.map (·.id) = c.pending.map (·.id) := by
  simp only [Collection.set, map_map]
  refine map_congr_left fun e _ => ?_
  simp only [Function.comp_apply]
  split <;> rfl

theorem World.Good.unique (good : w.Good) (here : e ∈ w.custody.pending)
    (there : e' ∈ w.custody.pending) (same : e'.id = e.id) : e' = e :=
  inj_on_of_nodup_map good.distinct there here same

theorem World.Good.mem_set (good : w.Good) (here : e ∈ w.custody.pending)
    (there : e' ∈ (w.custody.set e.id h).pending) :
    e' ∈ w.custody.pending ∧ e'.id ≠ e.id ∨ e' = { e with transfer := h } := by
  obtain ⟨old, member, rfl⟩ := mem_map.mp there
  split
  case isTrue same =>
    cases good.unique here member same
    exact .inr rfl
  case isFalse other => exact .inl ⟨member, other⟩

theorem mem_grown :
    i ∈ grown log id issued ↔ (∃ c, issued = some c ∧ i = ⟨some id, c⟩) ∨ i ∈ log := by
  cases issued with
  | none => simp [grown]
  | some c => simp [grown]

/-- Another collection with the same entries' numbers, and perhaps one more control that is neither
a `BEGIN` nor an `ABANDON`. -/
theorem World.Good.moved (good : w.Good) (allocated : id < w.fresh)
    (permitted : ∀ c, issued = some c →
      c.op ≠ .begin ∧ c.op ≠ .abandon ∧ Permits w.issued ⟨some id, c⟩)
    (ids : custody.pending.map (·.id) = w.custody.pending.map (·.id))
    (stay : ∀ e ∈ w.custody.pending, ∃ e' ∈ custody.pending,
      e'.id = e.id ∧ e'.transfer.ticket = e.transfer.ticket)
    (count : custody.count = w.custody.count) (closed : custody.closed = w.custody.closed)
    (known : ∀ e ∈ custody.pending, Known (grown w.issued id issued) e) :
    { w.note (some id) issued with custody := custody }.Good where
  count := by
    have lengths := congrArg List.length ids
    simp only [length_map] at lengths
    exact count.trans (good.count.trans lengths.symm)
  distinct := by
    show (custody.pending.map (·.id)).Nodup
    exact ids ▸ good.distinct
  allocated e here := by
    have there : e.id ∈ w.custody.pending.map (·.id) := ids ▸ mem_map_of_mem here
    obtain ⟨old, member, same⟩ := mem_map.mp there
    exact same ▸ good.allocated old member
  named i here id' named := by
    obtain ⟨c, -, rfl⟩ | old := mem_grown.mp here
    · cases named
      exact allocated
    · exact good.named i old id' named
  known := known
  held i here q op success := by
    obtain ⟨c, new, rfl⟩ | old := mem_grown.mp here
    · exact absurd op (permitted c new).1
    · obtain ⟨id', named, held⟩ := good.held i old q op success
      refine ⟨id', named, held.mono (fun _ => mem_grown.mpr ∘ .inr) ?_⟩
      rintro e member rfl same
      obtain ⟨e', there, id, ticket⟩ := stay e member
      exact .inl ⟨e', there, id, ticket.trans same⟩
  open_ flag i here := by
    obtain ⟨c, new, rfl⟩ | old := mem_grown.mp here
    · exact (permitted c new).2.1
    · exact good.open_ (closed.symm.trans flag) i old
  lawful := by
    cases issued with
    | none => exact good.lawful
    | some c => exact ⟨(permitted c rfl).2.2, good.lawful⟩

theorem World.Good.adapt {did : Adapted α} (good : w.Good) (here : e ∈ w.custody.pending)
    (adapts : Adapts w.issued e did) : (w.adapt e.id did).Good := by
  refine good.moved (good.allocated e here) adapts.permitted (Collection.set_ids ..) ?_ rfl rfl ?_
  · intro e' there
    refine ⟨_, mem_map.mpr ⟨e', there, rfl⟩, ?_⟩
    split
    case isTrue same =>
      cases good.unique here there same
      exact ⟨rfl, adapts.ticket⟩
    case isFalse => exact ⟨rfl, rfl⟩
  intro e' there
  obtain ⟨old, other⟩ | rfl := good.mem_set here there
  · cases issued : did.issued with
    | none => exact good.known e' old
    | some c =>
      exact (good.known e' old).cons fun same => absurd (Option.some.inj same).symm other
  · exact adapts.known

theorem World.Good.owned (good : w.Good) (thread : w.custody.thread self = .ok custody) :
    { w with custody := custody }.Good ∧ custody.pending = w.custody.pending ∧
      custody.closed = w.custody.closed ∧ custody.count = w.custody.count := by
  simp only [Collection.thread] at thread
  split at thread
  · split at thread
    · cases thread
      exact ⟨good, rfl, rfl, rfl⟩
    · cases thread
  · cases thread
    exact ⟨{ good with }, rfl, rfl, rfl⟩

theorem World.Good.unlink {j : Issue} (good : w.Good) (here : e ∈ w.custody.pending)
    (mem : j ∈ w.issued) (named : j.entry = some e.id) (op : j.control.op = .forget)
    (success : j.control.Succeeds) (ticket : j.control.ticket = e.transfer.ticket) :
    { w with custody := w.custody.unlink e.id }.Good := by
  have sub : (w.custody.unlink e.id).pending.Sublist w.custody.pending := eraseP_sublist
  constructor
  case count =>
    have length := length_eraseP_of_mem (p := (·.id = e.id)) here (by simp)
    show w.custody.count - 1 = (w.custody.pending.eraseP (·.id = e.id)).length
    rw [length, good.count]
  case distinct => exact good.distinct.sublist (sub.map _)
  case allocated => exact fun e' there => good.allocated e' (sub.subset there)
  case named => exact good.named
  case known => exact fun e' there => good.known e' (sub.subset there)
  case held =>
    intro i there q kind worked
    obtain ⟨id, begun, held⟩ := good.held i there q kind worked
    refine ⟨id, begun, held.mono (List.Subset.refl _) ?_⟩
    rintro e' member rfl of_begin
    by_cases same : e'.id = e.id
    · cases good.unique here member same
      exact .inr (.inl ⟨j, mem, named, op, success, ticket.trans of_begin⟩)
    · exact .inl ⟨e', (mem_eraseP_of_neg (by simpa using same)).mpr member, rfl, of_begin⟩
  case open_ => exact good.open_
  case lawful => exact good.lawful

theorem World.Good.retire (good : w.Good) (here : e ∈ w.custody.pending)
    (closed : w.custody.closed = false) (native : Native) :
    (w.retire e.id e.transfer native).1.Good := by
  have known := good.known e here
  have noted : (w.note (some e.id) (e.transfer.forget native).issued).Good := by
    obtain ⟨none, -⟩ | ⟨c, issued, settled, op, ticket, -⟩ := forget_cases e.transfer native
    · rw [none]
      exact good
    · have permitted : Permits w.issued ⟨some e.id, c⟩ := by
        simp only [Permits, op, ticket]
        exact ⟨known.begun, good.open_ closed, known.settled settled⟩
      have quiet : ¬c.Settles := c.not_settles (by rw [op]; decide) (by rw [op]; decide)
      refine good.moved (good.allocated e here) ?_ rfl (fun e' there => ⟨e', there, rfl, rfl⟩)
        rfl rfl ?_
      · intro d same
        cases issued.symm.trans same
        exact ⟨by rw [op]; decide, by rw [op]; decide, permitted⟩
      · intro e' there
        rw [issued]
        exact (good.known e' there).cons fun _ => quiet
  simp only [World.retire]
  split
  · exact noted
  case h_2 ok =>
    obtain ⟨-, errno, failed⟩ | ⟨c, issued, -, op, ticket, success⟩ :=
      forget_cases e.transfer native
    · cases failed.symm.trans ok
    · refine noted.unlink here (j := ⟨some e.id, c⟩) ?_ rfl op (success ok) ticket
      exact mem_grown.mpr (.inl ⟨c, issued, rfl⟩)

theorem Collection.find_ok (found : c.find target address ticket = .ok e) :
    c.closed = false ∧ e ∈ c.pending ∧ target = some e.target ∧ e.transfer.address = address ∧
      e.transfer.ticket = ticket := by
  simp only [Collection.find] at found
  split at found
  · cases found
  case isFalse closed =>
    have closed : c.closed = false := by simpa using closed
    split at found
    · cases found
    · split at found
      · cases found
      · split at found
        · cases found
        case h_2 e' here =>
          have mem := mem_of_find?_eq_some here
          have ticket := List.find?_some here
          simp only [decide_eq_true_eq] at ticket
          split at found
          · cases found
          case isFalse same =>
            cases found
            have same := not_or.mp same
            exact ⟨closed, mem, congrArg some (not_not.mp same.2).symm, not_not.mp same.1, ticket⟩

theorem World.Good.unnamed (good : w.Good) (here : i ∈ w.issued) : i.entry ≠ some w.fresh :=
  fun named => absurd (good.named i here w.fresh named) (Nat.lt_irrefl _)

/-- `source_transfer_begin` for a new allocation issues a `BEGIN` or nothing, and the handle says
whether that has succeeded. -/
theorem begin_cases (mm address : Nat) (native : Native) :
    (Handle.zero.begin mm address native).issued = none ∧
      (Handle.zero.begin mm address native).handle.begun = false ∨
    ∃ c : Control, (Handle.zero.begin mm address native).issued = some c ∧ c.op = .begin ∧
      ((∃ errno, c.native = .error errno) ∧
          (Handle.zero.begin mm address native).handle.begun = false ∨
        ∃ q, c.native = .ok q ∧ (Handle.zero.begin mm address native).handle =
          { Handle.zero with mm, address, ticket := q.ticket, begun := true }) := by
  simp only [Handle.begin]
  split
  · exact .inl ⟨rfl, rfl⟩
  · cases native with
    | error errno => exact .inr ⟨_, rfl, rfl, .inl ⟨⟨errno, rfl⟩, rfl⟩⟩
    | ok q =>
      refine .inr ⟨⟨.begin, mm, address, 0, 0, .ok q⟩, ?_, rfl, .inr ⟨q, rfl, ?_⟩⟩
      · simp only
        split <;> rfl
      · simp only
        split <;> rfl

/-- An allocation whose `BEGIN` has failed or was not issued leaves the entries. -/
theorem World.Good.allocate (good : w.Good) (closed : w.custody.closed = false)
    (begins : ∀ c, issued = some c → c.op = .begin ∧ ¬c.Succeeds) :
    { w.note (some w.fresh) issued with fresh := w.fresh + 1 }.Good := by
  have open_ := good.open_ closed
  constructor
  case count => exact good.count
  case distinct => exact good.distinct
  case allocated => exact fun e here => Nat.lt_succ_of_lt (good.allocated e here)
  case named =>
    intro i here id named
    obtain ⟨c, -, rfl⟩ | old := mem_grown.mp here
    · cases named
      exact Nat.lt_succ_self _
    · exact Nat.lt_succ_of_lt (good.named i old id named)
  case known =>
    intro e here
    cases issued with
    | none => exact good.known e here
    | some c =>
      refine (good.known e here).cons fun _ => c.not_settles ?_ ?_
      · rw [(begins c rfl).1]
        decide
      · rw [(begins c rfl).1]
        decide
  case held =>
    intro i here q op success
    obtain ⟨c, new, rfl⟩ | old := mem_grown.mp here
    · exact absurd ⟨q, success⟩ (begins c new).2
    · obtain ⟨id, named, held⟩ := good.held i old q op success
      exact ⟨id, named, held.mono (fun _ => mem_grown.mpr ∘ .inr)
        fun e mem same ticket => .inl ⟨e, mem, same, ticket⟩⟩
  case open_ =>
    intro _ i here
    obtain ⟨c, new, rfl⟩ | old := mem_grown.mp here
    · rw [(begins c new).1]
      decide
    · exact open_ i old
  case lawful =>
    cases issued with
    | none => exact good.lawful
    | some c =>
      refine ⟨?_, good.lawful⟩
      simp only [Permits, (begins c rfl).1]
      exact open_

theorem World.Good.enter {c : Control} {q : TransferBlock} {target : MmBinding} (good : w.Good)
    (closed : w.custody.closed = false) (op : c.op = .begin) (success : c.native = .ok q) :
    { w.note (some w.fresh) (some c) with
      fresh := w.fresh + 1
      custody := { w.custody with
        pending := ⟨w.fresh, target, { Handle.zero with
          mm := target.mm, address := address, ticket := q.ticket, begun := true }⟩ ::
            w.custody.pending
        count := w.custody.count + 1 } }.Good := by
  have open_ := good.open_ closed
  have quiet : ¬c.Settles := c.not_settles (by rw [op]; decide) (by rw [op]; decide)
  have silent (i : Issue) (here : i ∈ ⟨some w.fresh, c⟩ :: w.issued)
      (named : i.entry = some w.fresh) : i.control = c := by
    obtain rfl | old := mem_cons.mp here
    · rfl
    · exact absurd named (good.unnamed old)
  constructor
  case count => exact congrArg (· + 1) good.count
  case distinct =>
    refine nodup_cons.mpr ⟨fun here => ?_, good.distinct⟩
    obtain ⟨e, mem, same⟩ := mem_map.mp here
    exact absurd (good.allocated e mem) (by simp [show e.id = w.fresh from same])
  case allocated =>
    intro e here
    obtain rfl | old := mem_cons.mp here
    · exact Nat.lt_succ_self _
    · exact Nat.lt_succ_of_lt (good.allocated e old)
  case named =>
    intro i here id named
    obtain rfl | old := mem_cons.mp here
    · cases named
      exact Nat.lt_succ_self _
    · exact Nat.lt_succ_of_lt (good.named i old id named)
  case known =>
    intro e here
    obtain rfl | old := mem_cons.mp here
    · exact {
        begun := ⟨_, mem_cons_self, rfl, op, q, success, rfl⟩
        mm := rfl
        read := nofun
        unsettled := fun _ i here named => silent i here named ▸ quiet
        settled := nofun
        cancelled := nofun
        delivered := nofun
        spoiled := fun i here named spoils => by
          rw [silent i here named] at spoils
          obtain ⟨acks, -⟩ | ⟨cancels, -⟩ := spoils
          · cases op.symm.trans acks
          · cases op.symm.trans cancels }
    · exact (good.known e old).cons fun _ => quiet
  case held =>
    intro i here r kind worked
    obtain rfl | old := mem_cons.mp here
    · cases success.symm.trans worked
      exact ⟨w.fresh, rfl, .inl ⟨_, mem_cons_self, rfl, rfl⟩⟩
    · obtain ⟨id, named, held⟩ := good.held i old r kind worked
      exact ⟨id, named, held.mono (subset_cons_self ..)
        fun e mem same ticket => .inl ⟨e, mem_cons_of_mem _ mem, same, ticket⟩⟩
  case open_ =>
    intro _ i here
    obtain rfl | old := mem_cons.mp here
    · show c.op ≠ _
      rw [op]
      decide
    · exact open_ i old
  case lawful =>
    refine ⟨?_, good.lawful⟩
    simp only [Permits, op]
    exact open_

theorem World.Good.begin {memory : Bool} (good : w.Good) :
    (w.begin self target address memory native).1.Good := by
  simp only [World.begin]
  split
  · exact good
  case h_2 custody thread =>
    have owned := (good.owned thread).1
    split
    · exact owned
    case isFalse open_ =>
      have closed : custody.closed = false := by simpa using open_
      split
      · exact owned
      case h_2 target =>
        split
        · exact owned
        · split
          · exact owned
          · split
            · exact owned
            · obtain ⟨none, idle⟩ | ⟨c, issued, op, ⟨⟨errno, failed⟩, idle⟩ | ⟨q, success, held⟩⟩ :=
                begin_cases target.mm address native
              · simp only [idle, none]
                exact owned.allocate closed nofun
              · simp only [idle, issued]
                refine owned.allocate closed fun d new => ?_
                cases new
                refine ⟨op, fun ⟨q, success⟩ => ?_⟩
                cases failed.symm.trans success
              · simp only [held, issued, if_true]
                exact owned.enter closed op success

/-- `source_custody_abandon`: the collection is closed before the control. -/
theorem World.Good.abandon (good : w.Good) : (w.abandon self native).1.Good := by
  have closes {custody : Collection} (thread : w.custody.thread self = .ok custody) :
      { w.note none (some ⟨.abandon, 0, 0, 0, 0, native⟩) with
        custody := { custody with closed := true } }.Good := by
    obtain ⟨owned, pending, -⟩ := good.owned thread
    have quiet : ¬(Control.mk .abandon 0 0 0 0 native).Settles :=
      Control.not_settles nofun nofun
    constructor
    case count => exact owned.count
    case distinct => exact owned.distinct
    case allocated => exact owned.allocated
    case named =>
      intro i here id named
      obtain rfl | old := mem_cons.mp here
      · cases named
      · exact owned.named i old id named
    case known => exact fun e here => (owned.known e here).cons fun _ => quiet
    case held =>
      intro i here q op success
      obtain rfl | old := mem_cons.mp here
      · cases op
      · obtain ⟨id, named, held⟩ := owned.held i old q op success
        exact ⟨id, named, held.mono (subset_cons_self ..)
          fun e mem same ticket => .inl ⟨e, mem, same, ticket⟩⟩
    case open_ => exact nofun
    case lawful => exact ⟨trivial, owned.lawful⟩
  simp only [World.abandon]
  split
  · exact good
  case h_2 custody thread =>
    have closed := closes thread
    cases native with
    | error errno => exact closed
    | ok q =>
      exact { closed with
        count := rfl
        distinct := nodup_nil
        allocated := nofun
        known := nofun
        held := fun i here r op success => by
          obtain ⟨id, named, -⟩ := closed.held i here r op success
          exact ⟨id, named, .inr (.inr ⟨_, mem_cons_self, rfl, q, rfl⟩)⟩ }

theorem Collection.mem_set_self (here : e ∈ c.pending) :
    { e with transfer := h } ∈ (c.set e.id h).pending :=
  mem_map.mpr ⟨e, here, if_pos rfl⟩

theorem World.Good.ack (good : w.Good) :
    (w.ack self target address ticket native forget).1.Good := by
  simp only [World.ack]
  split
  · exact good
  case h_2 custody thread =>
    have owned := (good.owned thread).1
    split
    · exact owned
    case h_2 e found =>
      obtain ⟨closed, here, -⟩ := Collection.find_ok found
      have adapted := owned.adapt here
        (ack_adapts (owned.known e here) (owned.open_ closed) native)
      have there := Collection.mem_set_self (h := (e.transfer.ack native).handle) here
      split
      · exact adapted
      · have retired := adapted.retire there closed forget
        split
        case h_1 same => exact congrArg Prod.fst same ▸ retired
        case h_2 same => exact congrArg Prod.fst same ▸ retired

theorem World.Good.cancel (good : w.Good) :
    (w.cancel self target address ticket native forget).1.Good := by
  simp only [World.cancel]
  split
  · exact good
  case h_2 custody thread =>
    have owned := (good.owned thread).1
    split
    · exact owned
    case h_2 e found =>
      obtain ⟨closed, here, -⟩ := Collection.find_ok found
      have adapted := owned.adapt here
        (cancel_adapts (owned.known e here) (owned.open_ closed) native)
      have there := Collection.mem_set_self (h := (e.transfer.cancel native).handle) here
      split
      · exact adapted
      · exact adapted.retire there closed forget

theorem World.Good.capture (good : w.Good) (step : w.capture id native = some after) :
    after.1.Good := by
  obtain ⟨e, found, rfl⟩ := Option.map_eq_some_iff.mp step
  have here := mem_of_find?_eq_some found
  have same : e.id = id := by simpa using List.find?_some found
  cases same
  exact good.adapt here (capture_adapts (good.known e here) native)

theorem World.Good.read {buf : Nat} {staging : PageBytes} (good : w.Good)
    (step : w.read id buf staging native = some after) : after.1.Good := by
  obtain ⟨e, found, rfl⟩ := Option.map_eq_some_iff.mp step
  have here := mem_of_find?_eq_some found
  have same : e.id = id := by simpa using List.find?_some found
  cases same
  exact good.adapt here (read_adapts (good.known e here) buf staging native)

theorem World.Good.call {c : Call} (good : w.Good) (step : w.call c = some after) :
    after.1.Good := by
  cases c with
  | begin self target address memory native =>
    cases step
    exact good.begin
  | capture id native => exact good.capture step
  | read id buf staging native => exact good.read step
  | ack self target address ticket native forget =>
    cases step
    exact good.ack
  | cancel self target address ticket native forget =>
    cases step
    exact good.cancel
  | abandon self native =>
    cases step
    exact good.abandon

theorem new_good : World.new.Good where
  count := rfl
  distinct := nodup_nil
  allocated _ here := nomatch here
  named _ here := nomatch here
  known _ here := nomatch here
  held _ here := nomatch here
  open_ _ _ here := nomatch here
  lawful := trivial

theorem reached_good {w : World}
    (run : Reach (Computed fun w c => (World.call w c).map Prod.fst) World.new w) : w.Good := by
  have keeps : ∀ (before : World) (c : Call) (after : World), before.Good →
      Computed (fun w c => (World.call w c).map Prod.fst) before c after → after.Good := by
    intro before c after good step
    obtain ⟨out, called, rfl⟩ := Option.map_eq_some_iff.mp step
    exact good.call called
  exact Reach.invariant keeps new_good run

end Vmctx.Connection
