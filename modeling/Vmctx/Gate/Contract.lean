import Mathlib.Data.List.Nodup
import Vmctx.Gate.Records
/-!
# What the native syscall gate guarantees

Tickets are numbered without a gap, a ticket's call is dispatched at most once and only after a
`COMMIT` of it, every answer tells the admitted call, and `COMPLETE` is answered with the final
results of a retired slot. Controls may be repeated, lose their answers and interleave with the task
at any point.
-/

namespace Vmctx.Gate

open Vmctx.System List

/-! ## What is only added to -/

variable {r r' : Record} {w w' : World} {a : TaskAct} {c c' : Context} {answer : Option Answer}

theorem RecordMove.admitted_grows (move : RecordMove r r') {e : Entry} (old : e ∈ r.admitted) :
    e ∈ r'.admitted := by
  cases move with
  | admits => exact mem_cons_of_mem _ old
  | _ => exact old

theorem RecordMove.committed_grows (move : RecordMove r r') {t : Nat} (old : t ∈ r.committed) :
    t ∈ r'.committed := by
  cases move with
  | commits => exact mem_cons_of_mem _ old
  | _ => exact old

theorem RecordMove.finals_grows (move : RecordMove r r') {e : Nat × SysCall × Int}
    (old : e ∈ r.finals) : e ∈ r'.finals := by
  cases move with
  | completes => exact mem_cons_of_mem _ old
  | _ => exact old

/-! ## Dispatches -/

structure World.Dispatches (w : World) : Prop where
  upto : ∀ e ∈ w.dispatched,
    e.1 ≤ w.ctx.gate.ticket ∧ (w.ctx.Undispatched → e.1 < w.ctx.gate.ticket)
  once : (w.dispatched.map Prod.fst).Nodup
  real : ∀ e ∈ w.dispatched, e ∈ w.admitted ∧ e.1 ∈ w.committed ∧ e.2.1 ≠ -1

/-- A step that dispatches nothing keeps the dispatches, if the ticket it leaves before its dispatch
was before it already or is a new one. -/
theorem World.Dispatches.keep (good : w.Dispatches) (move : RecordMove w.record w'.record)
    (same : w'.dispatched = w.dispatched) (later : w.ctx.gate.ticket ≤ w'.ctx.gate.ticket)
    (fresh : w'.ctx.Undispatched → w.ctx.Undispatched ∨ w.ctx.gate.ticket < w'.ctx.gate.ticket) :
    w'.Dispatches := by
  refine ⟨?_, by rw [same]; exact good.once, ?_⟩
  · rw [same]
    intro e dispatched
    have bound := good.upto e dispatched
    refine ⟨Nat.le_trans bound.1 later, fun before => ?_⟩
    obtain waiting | begins := fresh before
    · exact Nat.lt_of_lt_of_le (bound.2 waiting) later
    · exact Nat.lt_of_le_of_lt bound.1 begins
  · rw [same]
    intro e dispatched
    have real := good.real e dispatched
    exact ⟨move.admitted_grows real.1, move.committed_grows real.2.1, real.2.2⟩

theorem taskMove_undispatched (move : TaskMove c a c') (after : c'.Undispatched) :
    c.Undispatched := by
  unfold Context.Undispatched at after ⊢
  cases move with
  | ready at_ | unpublished at_ => exact after
  | enters at_ pending gated =>
    rw [at_]
    exact ⟨pending, gated⟩
  | admits at_ =>
    rw [at_]
    trivial
  | births at_ | buries at_ =>
    simp only [at_] at after
  | retires at_ => cases after.1
  | _ => cases after

theorem taskMove_dispatches (ctx : w.ctx.Good) (record : Recorded w.record) (good : w.Dispatches)
    (move : TaskMove w.ctx a c) : (w.tasked c a).Dispatches := by
  have recorded := taskMove_record ctx move
  have before := taskMove_undispatched move
  have kept := taskMove_keeps ctx.fits move
  cases move with
  | dispatches at_ released wanted =>
    have fits := ctx.fits.at_task at_
    have running := fits.2.2.1.resolve_left released
    have pending : w.ctx.Undispatched := by
      rw [Context.Undispatched, at_]
      trivial
    have admitted := record.admittedNow (by simp only [World.record, running]; decide)
    have committed := record.committedNow (Nat.le_of_eq (by simp only [World.record, running]))
    simp only [World.record, fits.2.2.2] at admitted committed
    refine ⟨?_, ?_, ?_⟩
    · intro e dispatched
      refine ⟨?_, fun waiting => waiting.elim⟩
      obtain rfl | old := mem_cons.mp dispatched
      · exact Nat.le_refl _
      · exact (good.upto e old).1
    · refine nodup_cons.mpr ⟨fun present => ?_, good.once⟩
      obtain ⟨e, old, same⟩ := mem_map.mp present
      have := (good.upto e old).2 pending
      exact absurd same (Nat.ne_of_lt this)
    · intro e dispatched
      obtain rfl | old := mem_cons.mp dispatched
      · exact ⟨admitted, committed, wanted⟩
      · exact good.real e old
  | clears at_ | retires at_ =>
    simp only [World.tasked] at recorded ⊢
    split at recorded
    case isTrue gated =>
      rw [if_pos gated]
      exact good.keep recorded rfl (Nat.le_refl _) (fun after => .inl (before after))
    case isFalse other =>
      rw [if_neg other]
      exact good.keep recorded rfl (Nat.le_refl _) (fun after => .inl (before after))
  | _ => exact good.keep recorded rfl (Nat.le_refl _) (fun after => .inl (before after))

theorem ctlMove_dispatches (ctx : w.ctx.Good)
    (good : w.Dispatches) (move : CtlMove w.ctx c answer) : (w.control c answer).Dispatches := by
  have recorded := ctlMove_record ctx move
  cases move with
  | began at_ op next free idle ready =>
    have later : w.ctx.gate.ticket < (SyscallGate.begin _).ticket := Nat.lt_of_lt_of_eq
      (Nat.lt_succ_self _) next.symm
    exact good.keep recorded rfl (Nat.le_of_lt later) (fun _ => .inr later)
  | _ => exact good.keep recorded rfl (Nat.le_refl _) .inl

theorem next_dispatches {a : Act} (ctx : w.ctx.Good) (record : Recorded w.record)
    (good : w.Dispatches) (step : w.next a = some w') : w'.Dispatches := by
  have recorded := next_record ctx step
  cases next_moves step with
  | turned => exact good
  | locks | intrudes | leaves => exact good.keep recorded rfl (Nat.le_refl _) .inl
  | controls move => exact ctlMove_dispatches ctx good move
  | occupies free other vacant idle =>
    refine good.keep recorded rfl (Nat.le_refl _) (fun after => ?_)
    -- The slot was free, so the task is parked or exiting and the call is not a gated one.
    unfold Context.Undispatched at after
    obtain ended | ⟨parked, -⟩ := ctx.fits.free vacant
    · simp only [ended] at after
    · simp only [parked] at after
      exact absurd after.2 (Nat.ne_of_lt other)
  | tasks move => exact taskMove_dispatches ctx record good move

/-! ## Answers -/

/-- An answer tells the admitted call and the final results of its ticket. -/
structure World.Tells (w : World) (r : GateReply) : Prop where
  entry : GateState.admitted.rank ≤ r.state.rank →
    (r.ticket, r.call.nr, r.call.args) ∈ w.admitted
  /-- At `COMPLETE` it has the results, and the slot is retired unless the context is dead. -/
  final : r.state = .complete →
    (r.ticket, r.call, r.dispatchRet) ∈ w.finals ∧ (r.ticket ∈ w.retired ∨ w.ctx.dead = true)

def World.Prepares (w : World) : Prop :=
  match w.ctx.ctl with
  | some (.settling _ r) => r.ticket = w.ctx.gate.ticket ∧ r.state = .complete
  | some (.childing _ r) | some (.copying _ r) => w.Tells r
  | _ => True

/-- What the answers of the gate say. -/
structure World.Answers (w : World) : Prop where
  /-- A completed ticket is retired once its slot is free or another call's. -/
  retired : w.ctx.gate.state = .complete → w.ctx.sysPending = false ∨ w.ctx.sysException ≠ 3 →
    w.ctx.gate.ticket ∈ w.retired
  /-- What a control prepares to answer is true of its ticket. -/
  prepares : w.Prepares
  /-- And so is every answer given. -/
  told : ∀ r ∈ w.answers, w.Tells r

theorem World.Tells.grows {r : GateReply} (tells : w.Tells r) (move : RecordMove w.record w'.record)
    (retired : ∀ t ∈ w.retired, t ∈ w'.retired) (dead : w.ctx.dead = true → w'.ctx.dead = true) :
    w'.Tells r where
  entry late := move.admitted_grows (tells.entry late)
  final late :=
    have told := tells.final late
    ⟨move.finals_grows told.1, told.2.imp (retired _) dead⟩

theorem World.Prepares.grows (prepares : w.Prepares) (move : RecordMove w.record w'.record)
    (retired : ∀ t ∈ w.retired, t ∈ w'.retired) (dead : w.ctx.dead = true → w'.ctx.dead = true)
    (ctl : w'.ctx.ctl = w.ctx.ctl) (ticket : w'.ctx.gate.ticket = w.ctx.gate.ticket) :
    w'.Prepares := by
  unfold World.Prepares at prepares ⊢
  rw [ctl, ticket]
  split at prepares
  case h_1 => exact prepares
  case h_2 | h_3 => exact prepares.grows move retired dead
  case h_4 => exact prepares

theorem ctlMove_answers (ctx : w.ctx.Good) (record : Recorded w.record) (good : w.Answers)
    (move : CtlMove w.ctx c answer) : (w.control c answer).Answers := by
  have recorded := ctlMove_record ctx move
  have holds := ctx.holds
  have prepares := good.prepares
  have grows : ∀ r, w.Tells r → c.dead = w.ctx.dead → (w.control c answer).Tells r :=
    fun r tells dead => tells.grows recorded (fun _ => id) (fun gone => dead.trans gone)
  cases move with
  | refused | cancelled | unretired | lost | passed =>
    exact ⟨good.retired, trivial, fun r old => grows r (good.told r old) rfl⟩
  | began | committed =>
    exact ⟨nofun, trivial, fun r old => grows r (good.told r old) rfl⟩
  | found at_ state =>
    rw [Context.Holds, at_] at holds
    exact ⟨good.retired, ⟨holds, state⟩, fun r old => grows r (good.told r old) rfl⟩
  | looked at_ state =>
    rw [Context.Holds, at_] at holds
    have tells : w.Tells (w.ctx.reply _) := {
      entry := fun late => by
        simp only [Context.reply] at late ⊢
        rw [if_pos late, holds]
        exact record.admittedNow late
      final := fun late => absurd late state }
    exact ⟨good.retired, grows _ tells rfl, fun r old => grows r (good.told r old) rfl⟩
  | @settled rq reply at_ final =>
    rw [Context.Holds, at_] at holds
    rw [World.Prepares, at_] at prepares
    have late : GateState.admitted.rank ≤ w.record.state.rank := by
      simp only [World.record, holds.2]
      decide
    have tells : w.Tells
        { reply with call := w.ctx.gate.call, dispatchRet := w.ctx.gate.dispatchRet } :=
      { entry := fun _ => by
          simp only [prepares.1]
          exact record.admittedNow late
        final := fun _ => by
          simp only [prepares.1]
          exact ⟨record.finalsNow holds.2,
            final.imp (fun free => good.retired holds.2 (.inl free)) id⟩ }
    exact ⟨good.retired, grows _ tells rfl, fun r old => grows r (good.told r old) rfl⟩
  | childless at_ absent =>
    rw [World.Prepares, at_] at prepares
    exact ⟨good.retired, grows _ prepares rfl, fun r old => grows r (good.told r old) rfl⟩
  | @child rq reply at_ present =>
    rw [World.Prepares, at_] at prepares
    have tells : w.Tells { reply with
        childHostPid := w.ctx.gate.childHostPid
        childPid := w.ctx.gate.childPid
        childSharedMm := w.ctx.gate.childSharedMm } := ⟨prepares.entry, prepares.final⟩
    exact ⟨good.retired, grows _ tells rfl, fun r old => grows r (good.told r old) rfl⟩
  | answered at_ =>
    rw [World.Prepares, at_] at prepares
    refine ⟨good.retired, trivial, fun r told => ?_⟩
    obtain rfl | old := mem_cons.mp told
    · exact grows _ prepares rfl
    · exact grows r (good.told r old) rfl

theorem taskMove_retired (ctx : w.ctx.Good) (good : w.Answers) (move : TaskMove w.ctx a c)
    (complete : c.gate.state = .complete) (free : c.sysPending = false ∨ c.sysException ≠ 3) :
    c.gate.ticket ∈ (w.tasked c a).retired := by
  cases move with
  | admits => cases complete
  | completes at_ =>
    have fits := ctx.fits.at_task at_
    obtain free | other := free
    · exact absurd (fits.1.symm.trans free) (by decide)
    · exact absurd fits.2.1 other
  | dispatches | skips | births | returns | ready | enters | assists | unpublished | assisted
  | exits | buries => exact good.retired complete free
  | clears at_ =>
    have idle : ¬(w.ctx.task = .retiring ∧ w.ctx.sysException = 3) := by
      obtain at_ | at_ := at_ <;> simp [at_]
    simp only [World.tasked, if_neg idle]
    exact good.retired complete free
  | retires at_ =>
    simp only [World.tasked]
    split
    case isTrue gated => exact mem_cons_self
    case isFalse other =>
      have other : w.ctx.sysException ≠ 3 := fun gated => other ⟨at_, gated⟩
      exact good.retired complete (.inr other)

theorem tasked_grows (w : World) (c : Context) (a : TaskAct) :
    (w.tasked c a).ctx = c ∧ (w.tasked c a).answers = w.answers ∧
      ∀ t ∈ w.retired, t ∈ (w.tasked c a).retired := by
  cases a with
  | dispatch =>
    simp only [World.tasked]
    split <;> exact ⟨rfl, rfl, fun _ => id⟩
  | retire =>
    simp only [World.tasked]
    split
    · exact ⟨rfl, rfl, fun _ => mem_cons_of_mem _⟩
    · exact ⟨rfl, rfl, fun _ => id⟩
  | _ => exact ⟨rfl, rfl, fun _ => id⟩

theorem taskMove_dead (move : TaskMove c a c') (dead : c.dead = true) : c'.dead = true := by
  cases move with
  | buries => rfl
  | _ => exact dead

theorem taskMove_answers (ctx : w.ctx.Good) (good : w.Answers) (move : TaskMove w.ctx a c) :
    (w.tasked c a).Answers := by
  have recorded := taskMove_record ctx move
  have kept := taskMove_keeps ctx.fits move
  have dead := taskMove_dead move
  have retires := taskMove_retired ctx good move
  obtain ⟨same, answers, grows⟩ := tasked_grows w c a
  refine ⟨?_, ?_, ?_⟩
  · rw [same]
    exact retires
  · rw [← same] at dead kept
    exact good.prepares.grows recorded grows dead kept.1 kept.2.1
  · rw [← same] at dead
    rw [answers]
    exact fun r old => (good.told r old).grows recorded grows dead

theorem next_answers {a : Act} (ctx : w.ctx.Good) (record : Recorded w.record) (good : w.Answers)
    (step : w.next a = some w') : w'.Answers := by
  cases next_moves step with
  | turned => exact good
  | locks | intrudes | leaves =>
    exact ⟨good.retired, trivial, fun r old => (good.told r old).grows .rests (fun _ => id) id⟩
  | controls move => exact ctlMove_answers ctx record good move
  | occupies free other vacant idle =>
    exact ⟨fun late _ => good.retired late (.inl vacant), trivial,
      fun r old => (good.told r old).grows .rests (fun _ => id) id⟩
  | tasks move => exact taskMove_answers ctx good move

/-! ## Whole runs -/

structure World.Good (w : World) : Prop where
  ctx : w.ctx.Good
  record : Recorded w.record
  dispatches : w.Dispatches
  answers : w.Answers

theorem new_good (service : Bool) : (World.new service).Good where
  ctx := ⟨⟨rfl, fun both => absurd both.1 Bool.false_ne_true, fun _ => .inl rfl⟩, trivial⟩
  record := {
    numbered := rfl
    admittedUpto := nofun
    admittedOnce := nodup_nil
    admittedNow := nofun
    committedUpto := nofun
    committedOnce := nodup_nil
    committedNow := nofun
    finalsUpto := nofun
    finalsOnce := nodup_nil
    finalsNow := nofun }
  dispatches := ⟨nofun, nodup_nil, nofun⟩
  answers := ⟨nofun, trivial, nofun⟩

theorem next_keeps {a : Act} (good : w.Good) (step : w.next a = some w') : w'.Good where
  ctx := next_good good.ctx step
  record := recordMove_recorded good.record (next_record good.ctx step)
  dispatches := next_dispatches good.ctx good.record good.dispatches step
  answers := next_answers good.ctx good.record good.answers step

theorem reached_good {service : Bool} (run : Reached service w) : w.Good :=
  run.invariant (fun _ _ _ good step => next_keeps good step) (new_good service)

/-! ## The contract -/

def CtlPc.request : CtlPc → Option GateRequest
  | .loaded rq _ | .answering rq | .settling rq _ | .childing rq _ | .copying rq _ => some rq
  | .other => none

def World.effects (w : World) : World := { w with ctx := { w.ctx with ctl := none }, answers := [] }

def GateState.Follows (before after : GateState) : Prop :=
  before = .entering ∧ after = .admitted ∨ before = .admitted ∧ after = .running ∨
    before = .running ∧ after = .complete

/-- What the gate of a context has done, in any state. -/
structure World.Contract (w : World) : Prop where
  /-- The accepted tickets are one, two and so on up to the current one. -/
  accepted : w.begun = countdown w.ctx.gate.ticket
  /-- A ticket is dispatched once. -/
  once : (w.dispatched.map Prod.fst).Nodup
  /-- A dispatched ticket was found `ADMITTED` by a `COMMIT`, and its call is not a skipped one. -/
  released : ∀ e ∈ w.dispatched, e.1 ∈ w.committed ∧ e.2.1 ≠ -1
  /-- An answer from `ADMITTED` on has the number and arguments of the one admission of its
  ticket. -/
  admitted : ∀ r ∈ w.answers, GateState.admitted.rank ≤ r.state.rank →
    (∀ e ∈ w.admitted, e.1 = r.ticket ↔ e = (r.ticket, r.call.nr, r.call.args)) ∧
    (r.ticket, r.call.nr, r.call.args) ∈ w.admitted
  /-- And it was dispatched with those, if it was. -/
  reported : ∀ r ∈ w.answers, GateState.admitted.rank ≤ r.state.rank →
    ∀ e ∈ w.dispatched, e.1 = r.ticket → e = (r.ticket, r.call.nr, r.call.args)
  /-- `COMPLETE` is answered with the one set of results of the ticket, and only when its slot is
  retired or the context is dead. -/
  final : ∀ r ∈ w.answers, r.state = .complete →
    (∀ e ∈ w.finals, e.1 = r.ticket ↔ e = (r.ticket, r.call, r.dispatchRet)) ∧
    (r.ticket, r.call, r.dispatchRet) ∈ w.finals ∧
    (r.ticket ∈ w.retired ∨ w.ctx.dead = true)

/-- What a step may do to the gate. -/
structure StepContract (w : World) (a : Act) (w' : World) : Prop where
  /-- A new ticket is the next one, asked for by `BEGIN`, and finds no call in the slot. -/
  begins : w'.ctx.gate.ticket ≠ w.ctx.gate.ticket →
    (∃ rq s, w.ctx.ctl = some (.loaded rq s) ∧ rq.op = gateBegin ∧
      rq.ticket = w.ctx.gate.ticket + 1) ∧
    w'.ctx.gate.ticket = w.ctx.gate.ticket + 1 ∧ w'.ctx.gate.state = .entering ∧
    w.ctx.sysPending = false ∧ w.ctx.assistNr = 0 ∧
    (w.ctx.task = .parked ∧ w.ctx.gate.state.rests ∨ w.ctx.task = .ended)
  /-- A ticket moves along the states, one at a time. -/
  moves : w'.ctx.gate.ticket = w.ctx.gate.ticket →
    w'.ctx.gate.state = w.ctx.gate.state ∨ w.ctx.gate.state.Follows w'.ctx.gate.state
  /-- `COMMIT` releases the ticket it names, from `ADMITTED`. -/
  commits : w'.committed ≠ w.committed →
    ∃ rq, w.ctx.ctl = some (.loaded rq .admitted) ∧ rq.op = gateCommit ∧
      rq.ticket = w.ctx.gate.ticket ∧ w.ctx.gate.state = .admitted ∧
      w'.committed = rq.ticket :: w.committed
  /-- `QUERY` and a repeated `BEGIN` have no effect. -/
  repeats : ∀ fault pc rq, a = .advance fault → w.ctx.ctl = some pc → pc.request = some rq →
    (rq.op = gateQuery ∨ rq.op = gateBegin ∧ rq.ticket = w.ctx.gate.ticket) →
    w'.effects = w.effects

theorem World.Good.contract (good : w.Good) : w.Contract where
  accepted := good.record.numbered
  once := good.dispatches.once
  released e dispatched := (good.dispatches.real e dispatched).2
  admitted r told late :=
    have entry := (good.answers.told r told).entry late
    ⟨fun _ present =>
      ⟨fun key => inj_on_of_nodup_map good.record.admittedOnce present entry key,
      fun same => congrArg Prod.fst same⟩, entry⟩
  reported r told late e dispatched key :=
    inj_on_of_nodup_map good.record.admittedOnce (good.dispatches.real e dispatched).1
      ((good.answers.told r told).entry late) key
  final r told late :=
    have final := (good.answers.told r told).final late
    ⟨fun _ present =>
      ⟨fun key => inj_on_of_nodup_map good.record.finalsOnce present final.1 key,
      fun same => congrArg Prod.fst same⟩, final⟩

theorem control_committed (w : World) (gate : c.gate = w.ctx.gate) :
    (w.control c answer).committed = w.committed := by
  rw [control_frame w gate]

theorem ctlMove_repeats {pc : CtlPc} {rq : GateRequest} (move : CtlMove w.ctx c answer)
    (at_ : w.ctx.ctl = some pc) (request : pc.request = some rq)
    (idle : rq.op = gateQuery ∨ rq.op = gateBegin ∧ rq.ticket = w.ctx.gate.ticket) :
    (w.control c answer).effects = w.effects := by
  have frame (gate : c.gate = w.ctx.gate) :
      (w.control c answer).effects = World.effects { w with ctx := c } := by
    rw [control_frame w gate]
    rfl
  cases move with
  | began loaded op next =>
    rw [loaded] at at_
    cases at_
    cases request
    obtain query | ⟨-, same⟩ := idle
    · exact absurd (op.symm.trans query) (by decide)
    · omega
  | committed loaded op =>
    rw [loaded] at at_
    cases at_
    cases request
    obtain query | ⟨begins, -⟩ := idle
    · exact absurd (op.symm.trans query) (by decide)
    · exact absurd (op.symm.trans begins) (by decide)
  | _ => exact frame rfl

theorem World.Good.stepContract {a : Act} (good : w.Good) (step : w.next a = some w') :
    StepContract w a w' := by
  have recorded := next_record good.ctx step
  refine ⟨?_, ?_, ?_, ?_⟩
  · intro changed
    cases next_moves step with
    | controls move =>
      cases move with
      | began at_ op next free idle ready =>
        exact ⟨⟨_, _, at_, op, next⟩, next, rfl, free, idle, (good.ctx.fits.free free).symm⟩
      | _ => exact absurd rfl changed
    | tasks move =>
      rw [(tasked_grows w _ _).1] at changed
      exact absurd (taskMove_keeps good.ctx.fits move).2.1 changed
    | _ => exact absurd rfl changed
  · intro same
    change w'.record.ticket = w.record.ticket at same
    change w'.record.state = w.record.state ∨ w.record.state.Follows w'.record.state
    generalize w'.record = after at recorded same ⊢
    cases recorded with
    | rests | returns => exact .inl rfl
    | begins => exact absurd same (Nat.succ_ne_self _)
    | admits at_ => exact .inr (.inl ⟨at_, rfl⟩)
    | commits at_ => exact .inr (.inr (.inl ⟨at_, rfl⟩))
    | completes at_ => exact .inr (.inr (.inr ⟨at_, rfl⟩))
  · intro changed
    cases next_moves step with
    | controls move =>
      cases move with
      | @committed rq at_ op same =>
        have holds := good.ctx.holds
        rw [Context.Holds, at_] at holds
        have admitted := holds rfl
        refine ⟨rq, at_, op, same, admitted, ?_⟩
        simp [World.control, admitted, same]
      | began => exact absurd (by simp [World.control, SyscallGate.begin]) changed
      | _ => exact (changed (control_committed w rfl)).elim
    | @tasks a c move =>
      have kept : (w.tasked c a).committed = w.committed := by
        cases a with
        | dispatch | retire =>
          simp only [World.tasked]
          split <;> rfl
        | _ => rfl
      exact absurd kept changed
    | _ => exact absurd rfl changed
  · rintro fault pc rq rfl at_ request idle
    cases next_moves step with
    | controls move => exact ctlMove_repeats move at_ request idle

/-- For every interleaving of controls and task, the history of the gate and every step that follows
meet the contract. -/
theorem syscall_gate_contract {service : Bool} {w : World} (run : Reached service w) :
    w.Contract ∧ ∀ a w', w.next a = some w' → StepContract w a w' :=
  ⟨(reached_good run).contract, fun _ _ step => (reached_good run).stepContract step⟩

def controlled (op ticket : Nat) (steps : Nat) : List Act :=
  .enter (some ⟨gateAbi, true, op, 0, ticket⟩) true :: List.replicate steps (.advance false)

/-- A call that makes a child, from `BEGIN` to the answer of `COMPLETE`. -/
def cloned : List Act :=
  [.task .ready] ++ controlled gateBegin 1 4 ++
  [.task (.start 56), .task (.admits 57 [7])] ++ controlled gateCommit 1 4 ++
  [.task .dispatch, .task (.birth 40 4 false), .task (.returned 4), .task (.complete 4 1 []),
    .task .retire, .task .retire] ++
  controlled gateQuery 1 5

/-- A call that clones is released, dispatched and reported complete. -/
theorem syscall_gate_contract_cloned :
    ∃ w : World, (w.Contract ∧ ∀ a w', w.next a = some w' → StepContract w a w') ∧
      (w.dispatched = [(1, 57, [7])] ∧ w.committed = [1] ∧
        w.answers.head? = some ⟨1, .complete, ⟨57, [7], 4, 1, []⟩, 4, 40, 4, false⟩) := by
  have ran : (exec World.next (World.new true) cloned).any (fun w =>
      decide (w.dispatched = [(1, 57, [7])] ∧ w.committed = [1] ∧
        w.answers.head? = some ⟨1, .complete, ⟨57, [7], 4, 1, []⟩, 4, 40, 4, false⟩)) = true := by
    decide
  obtain ⟨w, run, check⟩ := exec_exhibits ran
  exact ⟨w, syscall_gate_contract run, of_decide_eq_true check⟩

end Vmctx.Gate
