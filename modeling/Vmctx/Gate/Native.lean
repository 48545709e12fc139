import Vmctx.Gate.Contract
import Vmctx.Gate.Ledger
/-!
# A connection and the gate it drives

A connection is the only one that calls the gate's controls of its context. So the state a control
finds is the one its own earlier controls and the task have left: a gate that runs was committed by
a `COMMIT` of this connection, and one whose `COMMIT` has not returned success is complete by then.
-/

namespace Vmctx.Gate

/-! ## Births in the kernel -/

def World.Telling (w : World) : Option CtlPc → Prop
  | some (.settling rq r) =>
    r.ticket = rq.ticket ∧ r.childHostPid = 0 ∧ r.state = .complete ∧ r.ticket ∈ w.committed
  | some (.childing rq r) =>
    r.ticket = rq.ticket ∧ r.childHostPid = 0 ∧
      (GateState.running.rank ≤ r.state.rank → r.ticket ∈ w.committed) ∧
      (r.state.rank < GateState.running.rank → w.ctx.gate.state.rank < GateState.running.rank)
  | some (.copying rq r) =>
    r.ticket = rq.ticket ∧
      (GateState.running.rank ≤ r.state.rank → r.ticket ∈ w.committed) ∧
      (r.childHostPid ≠ 0 → GateState.running.rank ≤ r.state.rank)
  | _ => True

structure World.Children (w : World) : Prop where
  late : w.ctx.gate.childHostPid ≠ 0 → GateState.running.rank ≤ w.ctx.gate.state.rank
  telling : w.Telling w.ctx.ctl

structure Truthful (w : World) (n : Nat) (g : GateReply) : Prop where
  ticket : g.ticket = n
  child : g.childHostPid ≠ 0 → GateState.running.rank ≤ g.state.rank
  committed : GateState.running.rank ≤ g.state.rank → n ∈ w.committed

variable {g : GateReply} {w w' : World} {ctx c' : Context} {rq : GateRequest} {a : ConnAct}
  {b : Act} {c : Conn} {pc : ConnPc} {answer : Answer} {op : CallOp} {reply : CallReply}

theorem Truthful.grows {n : Nat} (truthful : Truthful w n g)
    (grows : ∀ t ∈ w.committed, t ∈ w'.committed) : Truthful w' n g :=
  ⟨truthful.ticket, truthful.child, fun late => grows n (truthful.committed late)⟩

theorem ctlMove_children {answer : Option Answer} (good : w.Good) (kids : w.Children)
    (move : CtlMove w.ctx ctx answer) : (w.control ctx answer).Children := by
  have holds := good.ctx.holds
  have telling := kids.telling
  have recorded := ctlMove_record good.ctx move
  have grows {t : Nat} (old : t ∈ w.committed) : t ∈ (w.control ctx answer).committed :=
    recorded.committed_grows old
  have now := good.record.committedNow
  cases move with
  | refused | cancelled | unretired | lost | answered | passed => exact ⟨kids.late, trivial⟩
  | began => exact ⟨fun child => absurd rfl child, trivial⟩
  | committed => exact ⟨fun _ => Nat.le_refl _, trivial⟩
  | @found rq at_ state =>
    rw [Context.Holds, at_] at holds
    have same : (w.ctx.reply rq).ticket = w.record.ticket := holds
    have complete : GateState.running.rank ≤ w.record.state.rank := by
      simp only [World.record, state]
      decide
    exact ⟨kids.late, rfl, rfl, state, grows (same ▸ now complete)⟩
  | @looked rq at_ state =>
    rw [Context.Holds, at_] at holds
    have same : (w.ctx.reply rq).ticket = w.record.ticket := holds
    exact ⟨kids.late, rfl, rfl, fun late => grows (same ▸ now late), id⟩
  | settled at_ final =>
    rw [at_] at telling
    obtain ⟨ticket, child, state, committed⟩ := telling
    refine ⟨kids.late, ticket, child, fun _ => grows committed, fun early => ?_⟩
    simp only [state] at early
    exact absurd early (by decide)
  | childless at_ absent =>
    rw [at_] at telling
    obtain ⟨ticket, child, committed, -⟩ := telling
    exact ⟨kids.late, ticket, fun late => grows (committed late), fun some => absurd child some⟩
  | child at_ present =>
    rw [at_] at telling
    obtain ⟨ticket, -, committed, early⟩ := telling
    refine ⟨kids.late, ticket, fun late => grows (committed late), fun _ => ?_⟩
    have late := kids.late present
    exact Nat.le_of_not_lt fun before => absurd (early before) (Nat.not_lt_of_le late)

theorem ctlMove_truthful {ticket : Nat} {pc : CtlPc} (kids : w.Children)
    (move : CtlMove w.ctx ctx (some (.ok (some g)))) (at_ : w.ctx.ctl = some pc)
    (request : pc.request = some rq) (asked : rq.ticket = ticket) : Truthful w ticket g := by
  have telling := kids.telling
  cases move with
  | answered copying =>
    rw [copying] at at_ telling
    cases at_
    cases request
    obtain ⟨same, committed, child⟩ := telling
    exact ⟨same.trans asked, child, fun late => asked ▸ same ▸ committed late⟩

theorem taskMove_children {a : TaskAct} (good : w.Good) (kids : w.Children)
    (move : TaskMove w.ctx a ctx) : (w.tasked ctx a).Children := by
  have fits := good.ctx.fits
  have same := (tasked_grows w ctx a).1
  have recorded := taskMove_record good.ctx move
  have grows {t : Nat} (old : t ∈ w.committed) : t ∈ (w.tasked ctx a).committed :=
    recorded.committed_grows old
  have kept := taskMove_keeps fits move
  -- The task moves the gate past `ADMITTED` only when it is running already.
  have early : w.ctx.gate.state.rank < GateState.running.rank →
      ctx.gate.state.rank < GateState.running.rank := by
    cases move with
    | admits => exact fun _ => (by decide : GateState.admitted.rank < GateState.running.rank)
    | completes at_ =>
      have running := (fits.at_task at_).2.2
      intro before
      rw [running] at before
      exact absurd before (by decide)
    | _ => exact id
  refine ⟨?_, ?_⟩
  · rw [same]
    cases move with
    | admits at_ =>
      intro child
      have entering := (fits.at_task at_).2.2
      have late := kids.late child
      rw [entering] at late
      exact absurd late (by decide)
    | births at_ named first running => exact fun _ => Nat.le_of_eq (by rw [running])
    | completes =>
      exact fun _ => (by decide : GateState.running.rank ≤ GateState.complete.rank)
    | _ => exact kids.late
  · rw [same, kept.1]
    have telling := kids.telling
    unfold World.Telling at telling ⊢
    split at telling
    case h_1 => exact ⟨telling.1, telling.2.1, telling.2.2.1, grows telling.2.2.2⟩
    case h_2 =>
      refine ⟨telling.1, telling.2.1, fun late => grows (telling.2.2.1 late), fun before => ?_⟩
      rw [same]
      exact early (telling.2.2.2 before)
    case h_3 => exact ⟨telling.1, fun late => grows (telling.2.1 late), telling.2.2⟩
    case h_4 => trivial

theorem next_children {a : Act} (good : w.Good) (kids : w.Children) (step : w.next a = some w') :
    w'.Children := by
  cases next_moves step with
  | turned => exact kids
  | locks | intrudes | leaves | occupies => exact ⟨kids.late, trivial⟩
  | controls move => exact ctlMove_children good kids move
  | tasks move => exact taskMove_children good kids move

/-! ## The steps around a connection -/

structure Outside (w w' : World) : Prop where
  ctl : w'.ctx.ctl = w.ctx.ctl ∨
    (w.ctx.ctl = none ∨ w.ctx.ctl = some .other) ∧ (w'.ctx.ctl = none ∨ w'.ctx.ctl = some .other)
  ticket : w'.ctx.gate.ticket = w.ctx.gate.ticket
  committed : w'.committed = w.committed
  complete : w.ctx.gate.state = .complete → w'.ctx.gate.state = .complete

theorem next_outside (good : w.Good) (outside : a.native = some b) (step : w.next b = some w') :
    Outside w w' := by
  cases next_moves step with
  | turned | locks | controls => cases a <;> cases outside
  | intrudes free | occupies free => exact ⟨.inr ⟨.inl free, .inr rfl⟩, rfl, rfl, id⟩
  | leaves held => exact ⟨.inr ⟨.inr held, .inl rfl⟩, rfl, rfl, id⟩
  | @tasks a ctx move =>
    have kept := taskMove_keeps good.ctx.fits move
    have same := (tasked_grows w ctx a).1
    have committed : (w.tasked ctx a).committed = w.committed := by
      cases a with
      | dispatch | retire =>
        simp only [World.tasked]
        split <;> rfl
      | _ => rfl
    rw [← same] at kept
    exact ⟨.inl kept.1, kept.2.1, committed, kept.2.2.2⟩

/-! ## The invariant -/

def Conn.Locked (c : Conn) : ConnPc → Prop
  | .inFirst _ _ => ∃ pc, c.world.ctx.ctl = some pc ∧
      pc.request = some (c.call.request c.call.firstOp)
  | .inCommit _ => ∃ pc, c.world.ctx.ctl = some pc ∧ pc.request = some (c.call.request gateCommit)
  | _ => c.world.ctx.ctl = none ∨ c.world.ctx.ctl = some .other

/-- The places of `serve` where a `COMMIT` may have taken effect and is not yet accounted for. -/
def Conn.Excused (c : Conn) : ConnPc → Prop
  | .inCommit _ => ∀ rq s, c.world.ctx.ctl ≠ some (.loaded rq s)
  | .gotCommit _ answer => ∀ errno, answer = .error errno → transient errno = false
  | .failed _ _ | .closed => True
  | _ => False

def Conn.Telling (c : Conn) : ConnPc → Prop
  | .inFirst _ _ => ∀ rq r, c.world.ctx.ctl = some (.childing rq r) ∨
      c.world.ctx.ctl = some (.copying rq r) → r.state = .running → c.call.committed = true
  | .gotFirst _ _ answer => ∀ g, answer = .ok (some g) →
      Truthful c.world c.call.next g ∧ (g.state = .running → c.call.committed = true)
  | .gotCommit _ answer => ∀ g, answer = .ok (some g) → Truthful c.world c.call.next g
  | _ => True

/-- The invariant between a connection and the gate. -/
structure Native (c : Conn) : Prop where
  good : c.world.Good
  kids : c.world.Children
  locked : c.Locked c.pc
  bound : c.world.ctx.gate.ticket ≤ c.call.next
  pending : c.call.active = true → c.call.committed = false →
    c.call.next ∈ c.world.committed →
    c.world.ctx.gate.state = .complete ∨ c.Excused c.pc
  telling : c.Telling c.pc
  born : c.call.gate.childHostPid ≠ 0 → c.call.next ∈ c.world.committed
  seen : c.call.birthSeen = true → c.call.next ∈ c.world.committed
  published : ∀ r g, .replied r g ∈ c.log → r.child = true → r.ticket ∈ c.world.committed

theorem Native.at_ (native : Native c) (at_ : c.pc = pc) : c.Locked pc := at_ ▸ native.locked

/-! ## The steps around it -/

def ConnPc.free : ConnPc → Bool
  | .inFirst _ _ | .inCommit _ => false
  | _ => true

theorem Conn.Locked.iff_free (free : pc.free = true) :
    c.Locked pc ↔ c.world.ctx.ctl = none ∨ c.world.ctx.ctl = some .other := by
  cases pc with
  | inFirst | inCommit => cases free
  | _ => exact Iff.rfl

theorem Conn.Locked.held (locked : c.Locked pc) (inside : pc.free = false) :
    ∃ at_ op, c.world.ctx.ctl = some at_ ∧ at_.request = some (c.call.request op) ∧
      (op = gateCommit → ∃ reply, pc = .inCommit reply) := by
  cases pc with
  | inFirst op reply =>
    obtain ⟨at_, held, request⟩ := locked
    refine ⟨at_, c.call.firstOp, held, request, fun commit => ?_⟩
    unfold Admission.firstOp at commit
    split at commit <;> exact absurd commit (by decide)
  | inCommit reply =>
    obtain ⟨at_, held, request⟩ := locked
    exact ⟨at_, gateCommit, held, request, fun _ => ⟨reply, rfl⟩⟩
  | _ => cases inside

theorem World.Good.committed_le (good : w.Good) {t : Nat} (old : t ∈ w.committed) :
    t ≤ w.ctx.gate.ticket := (good.record.committedUpto t old).1

theorem Native.inside (native : Native c) (kept : Outside c.world w) (inside : c.pc.free = false) :
    w.ctx.ctl = c.world.ctx.ctl := by
  obtain ⟨at_, op, held, request, -⟩ := native.locked.held inside
  obtain same | ⟨others, -⟩ := kept.ctl
  · exact same
  · rw [held] at others
    obtain none | other := others
    · cases none
    · cases other
      cases request

theorem surrounds_native (native : Native c) (outside : a.native = some b)
    (step : c.world.next b = some w) : Native { c with world := w } := by
  have kept := next_outside native.good outside step
  have ctl (inside : c.pc.free = false) := native.inside kept inside
  have locked := native.locked
  have telling := native.telling
  have pending := native.pending
  refine {
    good := next_keeps native.good step
    kids := next_children native.good native.kids step
    locked := ?_
    bound := by rw [kept.ticket]; exact native.bound
    pending := ?_
    telling := ?_
    born := fun child => by rw [kept.committed]; exact native.born child
    seen := fun flag => by rw [kept.committed]; exact native.seen flag
    published := fun r g told child => by
      rw [kept.committed]
      exact native.published r g told child }
  · cases inside : c.pc.free with
    | false =>
      have same := ctl inside
      cases at_ : c.pc with
      | inFirst | inCommit =>
        rw [at_] at locked
        simp only [Conn.Locked, same]
        exact locked
      | _ =>
        rw [at_] at inside
        cases inside
    | true =>
      rw [Conn.Locked.iff_free inside] at locked ⊢
      obtain same | ⟨-, others⟩ := kept.ctl
      · simp only [same]
        exact locked
      · exact others
  · intro active flag committed
    rw [kept.committed] at committed
    refine (pending active flag committed).imp kept.complete fun excused => ?_
    cases at_ : c.pc with
    | inCommit reply =>
      rw [at_] at excused
      have same := ctl (by rw [at_]; rfl)
      simp only [Conn.Excused, same]
      exact excused
    | _ =>
      rw [at_] at excused
      exact excused
  · cases at_ : c.pc with
    | inFirst op reply =>
      rw [at_] at telling
      have same := ctl (by rw [at_]; rfl)
      simp only [Conn.Telling, same]
      exact telling
    | gotFirst op reply answer =>
      rw [at_] at telling
      exact fun g told => ⟨(telling g told).1.grows (by rw [kept.committed]; exact fun _ => id),
        (telling g told).2⟩
    | gotCommit reply answer =>
      rw [at_] at telling
      exact fun g told => (telling g told).grows (by rw [kept.committed]; exact fun _ => id)
    | _ => trivial

/-! ## The controls -/

theorem World.Good.locks (good : w.Good) (rq : GateRequest) :
    World.Good { w with ctx := { w.ctx with ctl := some (.loaded rq w.ctx.gate.state) } } where
  ctx := ⟨good.ctx.fits, id⟩
  record := good.record
  dispatches := ⟨good.dispatches.upto, good.dispatches.once, good.dispatches.real⟩
  answers := ⟨good.answers.retired, trivial, fun r old =>
    ⟨(good.answers.told r old).entry, (good.answers.told r old).final⟩⟩

theorem World.Good.controls {answer : Option Answer} (good : w.Good)
    (move : CtlMove w.ctx ctx answer) : (w.control ctx answer).Good where
  ctx := ctlMove_good good.ctx move
  record := recordMove_recorded good.record (ctlMove_record good.ctx move)
  dispatches := ctlMove_dispatches good.ctx good.dispatches move
  answers := ctlMove_answers good.ctx good.record good.answers move

theorem ctlMove_goes {c : Context} {pc : CtlPc} (move : CtlMove c c' none) (at_ : c.ctl = some pc)
    (request : pc.request = some rq) :
    (∃ pc', c'.ctl = some pc' ∧ pc'.request = some rq) ∧
      ∀ rq s, c'.ctl ≠ some (.loaded rq s) := by
  cases move with
  | began here | committed here | passed here | found here | looked here | settled here
  | childless here | child here =>
    rw [here] at at_
    cases at_
    cases request
    exact ⟨⟨_, rfl, rfl⟩, nofun⟩

theorem ctlMove_returns {c : Context} (move : CtlMove c c' (some answer)) :
    c'.ctl = none ∧ c'.gate = c.gate := by
  cases move with
  | refused | cancelled | unretired | lost | answered => exact ⟨rfl, rfl⟩

theorem ctlMove_effect {answer : Option Answer} {pc : CtlPc} (move : CtlMove w.ctx ctx answer)
    (at_ : w.ctx.ctl = some pc) (request : pc.request = some rq) :
    (ctx.gate = w.ctx.gate ∧ (w.control ctx answer).committed = w.committed) ∨
    (rq.ticket = w.ctx.gate.ticket + 1 ∧ ctx.gate.ticket = rq.ticket ∧
      (w.control ctx answer).committed = w.committed) ∨
    (rq.op = gateCommit ∧ ctx.gate.ticket = w.ctx.gate.ticket) := by
  cases move with
  | began here op next free idle ready =>
    rw [here] at at_
    cases at_
    cases request
    refine .inr (.inl ⟨next, rfl, ?_⟩)
    simp [World.control, SyscallGate.begin]
  | committed here op same =>
    rw [here] at at_
    cases at_
    cases request
    exact .inr (.inr ⟨op, rfl⟩)
  | _ => exact .inl ⟨rfl, control_committed w rfl⟩

section

variable (native : Native c)
include native

theorem advances_telling (ledger : Ledger c) (at_ : c.pc = .inFirst op reply)
    (move : CtlMove c.world.ctx ctx none) :
    ∀ rq r, ctx.ctl = some (.childing rq r) ∨ ctx.ctl = some (.copying rq r) →
      r.state = .running → c.call.committed = true := by
  have telling := native.telling
  have standing := ledger.standing
  obtain ⟨pc, held, request⟩ : ∃ pc, c.world.ctx.ctl = some pc ∧
      pc.request = some (c.call.request c.call.firstOp) := by
    have locked := native.at_ at_
    exact locked
  rw [at_] at telling standing
  have holds := native.good.ctx.holds
  intro rq r place running
  cases move with
  | began | committed | passed | found =>
    obtain here | here := place <;> cases here
  | @looked asked here early =>
    obtain place | place := place
    · cases place
      rw [Context.Holds, here] at holds
      rw [here] at held
      cases held
      cases request
      -- The gate runs, so its ticket is committed; one not accounted for would be complete.
      have same : c.call.gate.ticket = c.world.ctx.gate.ticket := holds
      rw [ledger.books.ticket] at same
      have runs : c.world.ctx.gate.state = .running := running
      have committed : c.call.next ∈ c.world.committed := by
        rw [same]
        exact native.good.record.committedNow (Nat.le_of_eq (by simp only [World.record, runs]))
      cases flag : c.call.committed with
      | true => rfl
      | false =>
        obtain complete | excused := native.pending standing.active flag committed
        · exact absurd complete early
        · rw [at_] at excused
          exact excused.elim
    · cases place
  | @settled asked told here final =>
    have kids := native.kids.telling
    rw [here] at kids
    obtain place | place := place
    · cases place
      exact absurd (kids.2.2.1.symm.trans running) (by decide)
    · cases place
  | childless here | child here =>
    obtain place | place := place
    · cases place
    · cases place
      exact telling _ _ (.inl here) running

theorem advances_native (ledger : Ledger c) (move : CtlMove c.world.ctx ctx none)
    (inside : c.pc.free = false) : Native { c with world := c.world.control ctx none } := by
  obtain ⟨pc, op, held, request, commits⟩ := native.locked.held inside
  obtain ⟨⟨pc', goes, requests⟩, moved⟩ := ctlMove_goes move held request
  have grows {t : Nat} (old : t ∈ c.world.committed) : t ∈ (c.world.control ctx none).committed :=
    (ctlMove_record native.good.ctx move).committed_grows old
  have effect := ctlMove_effect move held request
  have asked : (c.call.request op).ticket = c.call.next := ledger.books.ticket
  have locked := native.locked
  refine {
    good := native.good.controls move
    kids := ctlMove_children native.good native.kids move
    locked := ?_
    bound := ?_
    pending := ?_
    telling := ?_
    born := fun child => grows (native.born child)
    seen := fun flag => grows (native.seen flag)
    published := fun r g told child => grows (native.published r g told child) }
  · cases at_ : c.pc with
    | inFirst | inCommit =>
      rw [at_] at locked
      obtain ⟨same, here, asks⟩ := locked
      rw [held] at here
      cases here
      rw [request] at asks
      exact ⟨pc', goes, requests.trans asks⟩
    | _ =>
      rw [at_] at inside
      cases inside
  · obtain ⟨same, -⟩ | ⟨-, begins, -⟩ | ⟨-, same⟩ := effect
    · simp only [World.control, same]
      exact native.bound
    · simp only [World.control]
      omega
    · simp only [World.control, same]
      exact native.bound
  · intro active flag committed
    obtain ⟨same, kept⟩ | ⟨next, -, kept⟩ | ⟨op, -⟩ := effect
    · simp only [kept] at committed
      refine (native.pending active flag committed).imp (fun complete => ?_) (fun excused => ?_)
      · simp only [World.control, same]
        exact complete
      · cases at_ : c.pc with
        | inCommit reply => exact moved
        | inFirst op reply =>
          rw [at_] at excused
          exact excused.elim
        | _ =>
          rw [at_] at inside
          cases inside
    · simp only [kept] at committed
      have old := native.good.committed_le committed
      omega
    · obtain ⟨reply, at_⟩ := commits op
      simp only [at_]
      exact .inr moved
  · cases at_ : c.pc with
    | inFirst op reply => exact advances_telling (c := c) native ledger at_ move
    | inCommit reply => trivial
    | _ =>
      rw [at_] at inside
      cases inside

theorem returns_native (move : CtlMove c.world.ctx ctx (some answer)) (free : pc.free = true)
    (pending : c.call.active = true → c.call.committed = false →
      c.call.next ∈ c.world.committed → c.world.ctx.gate.state = .complete ∨
        Conn.Excused { c with world := c.world.control ctx (some answer), pc := pc } pc)
    (telling : Conn.Telling { c with world := c.world.control ctx (some answer), pc := pc } pc) :
    Native { c with world := c.world.control ctx (some answer), pc := pc } := by
  obtain ⟨unlocked, same⟩ := ctlMove_returns move
  have kept : (c.world.control ctx (some answer)).committed = c.world.committed :=
    control_committed c.world same
  refine {
    good := native.good.controls move
    kids := ctlMove_children native.good native.kids move
    locked := (Conn.Locked.iff_free free).mpr (.inl unlocked)
    bound := ?_
    pending := ?_
    telling := telling
    born := fun child => by simp only [kept]; exact native.born child
    seen := fun flag => by simp only [kept]; exact native.seen flag
    published := fun r g told child => by
      simp only [kept]
      exact native.published r g told child }
  · simp only [World.control, same]
    exact native.bound
  · intro active flag committed
    simp only [kept] at committed
    have gate : (c.world.control ctx (some answer)).ctx.gate = c.world.ctx.gate := same
    simp only [gate]
    exact pending active flag committed

theorem firstReturns_native (ledger : Ledger c) (at_ : c.pc = .inFirst op reply)
    (move : CtlMove c.world.ctx ctx (some answer)) :
    Native { c with
      world := c.world.control ctx (some answer)
      pc := .gotFirst op reply answer } := by
  obtain ⟨-, same⟩ := ctlMove_returns move
  have kept : (c.world.control ctx (some answer)).committed = c.world.committed :=
    control_committed c.world same
  have telling := native.telling
  have locked := native.locked
  rw [at_] at telling locked
  obtain ⟨pc, held, request⟩ := locked
  refine returns_native native move rfl (fun active flag committed => ?_) (fun g told => ?_)
  · refine .inl ((native.pending active flag committed).resolve_right fun excused => ?_)
    rw [at_] at excused
    exact excused
  · subst told
    have truthful := ctlMove_truthful native.kids move held request ledger.books.ticket
    refine ⟨truthful.grows (by rw [kept]; exact fun _ => id), fun running => ?_⟩
    cases move with
    | answered here => exact telling _ _ (.inr here) running

theorem commitReturns_native (ledger : Ledger c) (at_ : c.pc = .inCommit reply)
    (move : CtlMove c.world.ctx ctx (some answer)) :
    Native { c with
      world := c.world.control ctx (some answer)
      pc := .gotCommit reply answer } := by
  obtain ⟨-, same⟩ := ctlMove_returns move
  have kept : (c.world.control ctx (some answer)).committed = c.world.committed :=
    control_committed c.world same
  obtain ⟨pc, held, request⟩ := native.at_ at_
  refine returns_native native move rfl (fun active flag committed => ?_) (fun g told => ?_)
  · cases move with
    | refused here =>
      -- The operation was refused before it had any effect.
      refine .inl ((native.pending active flag committed).resolve_right fun excused => ?_)
      rw [at_] at excused
      exact excused _ _ here
    | cancelled | answered => exact .inr nofun
    | unretired here =>
      have holds := native.good.ctx.holds
      rw [Context.Holds, here] at holds
      exact .inl holds.2
    | lost =>
      refine .inr fun errno told => ?_
      cases told
      rfl
  · subst told
    have truthful := ctlMove_truthful native.kids move held request ledger.books.ticket
    exact truthful.grows (by rw [kept]; exact fun _ => id)

theorem enters_native {log : List Event} (was : ¬c.Excused c.pc)
    (silent : ∀ r g, .replied r g ∈ log → .replied r g ∈ c.log)
    (locked : Conn.Locked { c with
      world := { c.world with
        ctx := { c.world.ctx with ctl := some (.loaded rq c.world.ctx.gate.state) } }
      pc := pc, log := log } pc) (inside : pc.free = false) :
    Native { c with
      world := { c.world with
        ctx := { c.world.ctx with ctl := some (.loaded rq c.world.ctx.gate.state) } }
      pc := pc, log := log } where
  good := native.good.locks rq
  kids := ⟨native.kids.late, trivial⟩
  locked := locked
  bound := native.bound
  pending active flag committed :=
    .inl ((native.pending active flag committed).resolve_right was)
  telling := by
    cases pc with
    | inFirst =>
      intro rq r place
      obtain place | place := place <;> cases place
    | inCommit => trivial
    | _ => cases inside
  born := native.born
  seen := native.seen
  published r g told := native.published r g (silent r g told)

end

/-! ## The thread's own steps -/

/-- A step that is the thread's own and does not end in a control's answer. -/
structure Threads (c c' : Conn) : Prop where
  world : c'.world = c.world
  bound : c.call.next ≤ c'.call.next
  free : c.pc.free = true ∧ c'.pc.free = true
  telling : c'.Telling c'.pc
  /-- A `COMMIT` not accounted for was so before, and an excuse for it stays one. -/
  pending : c'.call.active = true → c'.call.committed = false →
    c'.call.next ∈ c.world.committed →
    (c.call.active = true ∧ c.call.committed = false ∧ c.call.next ∈ c.world.committed) ∧
      (c.Excused c.pc → c'.Excused c'.pc)
  born : c'.call.gate.childHostPid ≠ 0 → c'.call.next ∈ c.world.committed
  seen : c'.call.birthSeen = true → c'.call.next ∈ c.world.committed
  published : ∀ r g, .replied r g ∈ c'.log →
    .replied r g ∈ c.log ∨ (r.child = true → r.ticket ∈ c.world.committed)

theorem threads_native {c' : Conn} (native : Native c) (threads : Threads c c') : Native c' := by
  have same := threads.world
  have locked := native.locked
  rw [Conn.Locked.iff_free threads.free.1] at locked
  refine {
    good := by rw [same]; exact native.good
    kids := by rw [same]; exact native.kids
    locked := by rw [Conn.Locked.iff_free threads.free.2, same]; exact locked
    bound := by rw [same]; exact Nat.le_trans native.bound threads.bound
    pending := ?_
    telling := threads.telling
    born := by rw [same]; exact threads.born
    seen := by rw [same]; exact threads.seen
    published := ?_ }
  · rw [same]
    intro active flag committed
    obtain ⟨⟨wasActive, wasOpen, was⟩, excuses⟩ := threads.pending active flag committed
    exact (native.pending wasActive wasOpen was).imp id excuses
  · rw [same]
    intro r g told child
    obtain old | new := threads.published r g told
    · exact native.published r g old child
    · exact new child

end Vmctx.Gate
