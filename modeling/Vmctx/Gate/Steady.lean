import Vmctx.Gate.Forward
/-!
# The source under a live task

While the task lives and its binding stays, and no `COMMIT` finds an unretired slot, no step of the
source fails. The gate follows the admission: before the flag says so no `COMMIT` has released the
call, so a gate that was seen `ADMITTED` still is, and after it every answer is at least `RUNNING`.
-/

namespace Vmctx.Gate

def World.shown (w : World) : Call := (w.ctx.gate.call.nr, w.ctx.gate.call.args)

/-- A `COMMIT` has released the call and its success is not yet taken up. -/
def Releasing (w : World) : ConnPc → Prop
  | .inCommit _ => ∀ rq s, w.ctx.ctl ≠ some (.loaded rq s)
  | .gotCommit _ answer => ∃ gate, answer = .ok gate
  | _ => False

structure Facts (w : World) (call : Admission) (g : GateReply) : Prop where
  current : w.ctx.gate.ticket = call.next
  real : g.state ≠ .none
  shown : GateState.admitted.rank ≤ g.state.rank →
    (g.call.nr, g.call.args) = w.shown ∧ GateState.admitted.rank ≤ w.ctx.gate.state.rank
  child : g.childHostPid ≠ 0 → w.ctx.gate.childHostPid ≠ 0

structure FirstFacts (w : World) (call : Admission) (op : CallOp) (g : GateReply) :
    Prop extends Facts w call g where
  late : call.committed = true → GateState.running.rank ≤ g.state.rank
  /-- Before the `COMMIT` it is not, and the gate has not moved on from `ADMITTED`. -/
  early : call.committed = false → g.state.rank < GateState.running.rank ∧
    (g.state = .admitted → w.ctx.gate.state = .admitted)
  asked : op = .execute → call.committed = false → g.state = .admitted

structure CommitFacts (w : World) (call : Admission) (g : GateReply) :
    Prop extends Facts w call g where
  late : GateState.running.rank ≤ g.state.rank

def Asked (call : Admission) (op : CallOp) : Prop :=
  op = .execute → call.committed = false → call.gate.state = .admitted ∨ call.prepared = true

def Place (w : World) (call : Admission) : ConnPc → Prop
  | .first op _ => Asked call op
  | .inFirst op _ => Asked call op ∧
      ∀ rq r, w.ctx.ctl = some (.childing rq r) ∨ w.ctx.ctl = some (.copying rq r) →
        FirstFacts w call op r
  | .gotFirst op _ answer => Asked call op ∧
      ((∃ g, answer = .ok (some g) ∧ FirstFacts w call op g) ∨
        ∃ errno, answer = .error errno ∧ transient errno = true)
  | .inCommit _ =>
      (∀ rq s, w.ctx.ctl = some (.loaded rq s) → s = .admitted) ∧
      ((∀ rq s, w.ctx.ctl ≠ some (.loaded rq s)) → call.next ∈ w.committed) ∧
      ∀ rq r, w.ctx.ctl = some (.childing rq r) ∨ w.ctx.ctl = some (.copying rq r) →
        CommitFacts w call r
  | .gotCommit _ answer => (∃ g, answer = .ok (some g) ∧ CommitFacts w call g) ∨
      ∃ errno, answer = .error errno ∧ transient errno = true
  | .failed _ _ | .closed => False
  | _ => True

/-- The invariant of a connection whose task lives. -/
structure Steady (c : Conn) : Prop where
  alive : c.world.ctx.dead = false ∧ c.world.ctx.service = true ∧ c.world.ctx.task ≠ .ended
  ticket : c.world.ctx.gate.ticket = c.call.next ∨
    c.call.active = true ∧ c.call.begun = false ∧ c.world.ctx.gate.ticket + 1 = c.call.next ∧
      c.call.next ≤ ticketMax
  begun : c.world.ctx.gate.ticket ≠ 0 → c.world.ctx.gate.state ≠ .none
  unreleased : c.call.active = true → c.call.committed = false →
    c.call.next ∈ c.world.committed → Releasing c.world c.pc
  released : c.call.committed = true → c.call.next ∈ c.world.committed ∧ c.call.prepared = true
  waits : c.call.active = true → c.call.committed = false →
    c.call.gate.state = .admitted ∨ c.call.prepared = true →
    c.world.ctx.gate.state = .admitted ∧ c.call.begun = true ∨ Releasing c.world c.pc
  /-- The gate's argument is past `ADMITTED` after the `COMMIT`, and not before. -/
  argument : c.call.committed = true ↔ GateState.running.rank ≤ c.call.gate.state.rank
  real : c.call.active = true → c.call.gate.state ≠ .none
  fixed : c.call.target.valid = true → c.world.ctx.gate.ticket = c.call.next ∧
    GateState.admitted.rank ≤ c.world.ctx.gate.state.rank ∧ c.call.admitted = c.world.shown
  child : c.call.gate.childHostPid ≠ 0 → c.world.ctx.gate.childHostPid ≠ 0
  clone : c.world.ctx.gate.childHostPid ≠ 0 → isCloneNr c.world.ctx.gate.call.nr = true
  place : Place c.world c.call c.pc

/-! ## Steps of the task and of other controls -/

/-- What the task and the other controls keep while the task lives. -/
structure Drift (w w' : World) : Prop where
  outside : Outside w w'
  alive : w'.ctx.dead = w.ctx.dead ∧ w'.ctx.service = w.ctx.service ∧
    (w.ctx.task ≠ .ended → w'.ctx.task ≠ .ended)
  real : w.ctx.gate.state ≠ .none → w'.ctx.gate.state ≠ .none
  waits : w.ctx.gate.state = .admitted → w'.ctx.gate.state = .admitted
  call : GateState.admitted.rank ≤ w.ctx.gate.state.rank →
    GateState.admitted.rank ≤ w'.ctx.gate.state.rank ∧
      w'.ctx.gate.call.nr = w.ctx.gate.call.nr ∧ w'.ctx.gate.call.args = w.ctx.gate.call.args
  child : w.ctx.gate.childHostPid ≠ 0 → w'.ctx.gate.childHostPid ≠ 0
  clone : (w.ctx.gate.childHostPid ≠ 0 → isCloneNr w.ctx.gate.call.nr = true) →
    w'.ctx.gate.childHostPid ≠ 0 → isCloneNr w'.ctx.gate.call.nr = true

variable {w w' : World} {ctx c' : Context} {a : ConnAct} {b : Act} {c : Conn} {call : Admission}
  {g r : GateReply} {op : CallOp} {errno : Errno} {reply : CallReply} {answer : Option Answer}
  {rq : GateRequest} {s : GateState}

theorem Steady.at_ {pc : ConnPc} (steady : Steady c) (at_ : c.pc = pc) :
    Place c.world c.call pc :=
  at_ ▸ steady.place

theorem Drift.still (outside : Outside w w') (gate : w'.ctx.gate = w.ctx.gate)
    (task : w'.ctx.task = w.ctx.task) (dead : w'.ctx.dead = w.ctx.dead)
    (service : w'.ctx.service = w.ctx.service) : Drift w w' where
  outside := outside
  alive := ⟨dead, service, by rw [task]; exact id⟩
  real := by rw [gate]; exact id
  waits := by rw [gate]; exact id
  call := by rw [gate]; exact fun late => ⟨late, rfl, rfl⟩
  child := by rw [gate]; exact id
  clone := by rw [gate]; exact id

theorem taskMove_drift {a : TaskAct} (good : w.Good) (kids : w.Children)
    (outside : Outside w (w.tasked ctx a)) (lives : a ≠ .exit ∧ a ≠ .bury)
    (clones : ∀ hostPid pid shared, a = .birth hostPid pid shared →
      ∀ nr args, w.ctx.task = .dispatching nr args → isCloneNr nr = true)
    (move : TaskMove w.ctx a ctx) : Drift w (w.tasked ctx a) := by
  have fits := good.ctx.fits
  have same := (tasked_grows w ctx a).1
  have kept := taskMove_keeps fits move
  constructor
  case outside => exact outside
  case waits => rw [same]; exact kept.2.2.1
  all_goals rw [same]
  case alive =>
    cases move with
    | exits => exact absurd rfl lives.1
    | buries => exact absurd rfl lives.2
    | ready | births | unpublished => exact ⟨rfl, rfl, id⟩
    | _ => exact ⟨rfl, rfl, nofun⟩
  case real =>
    cases move with
    | admits | completes => exact nofun
    | _ => exact id
  case call =>
    cases move with
    | admits at_ =>
      intro late
      rw [(fits.at_task at_).2.2] at late
      exact absurd late (by decide)
    | completes =>
      exact fun _ => ⟨(by decide : GateState.admitted.rank ≤ GateState.complete.rank), rfl, rfl⟩
    | _ => exact fun late => ⟨late, rfl, rfl⟩
  case child =>
    cases move with
    | births at_ named => exact fun _ => named
    | _ => exact id
  case clone =>
    cases move with
    | admits at_ =>
      intro _ child
      have late := kids.late child
      rw [(fits.at_task at_).2.2] at late
      exact absurd late (by decide)
    | births at_ named =>
      intro _ _
      have shown := (fits.at_task at_).2.2.2.1
      rw [shown]
      exact clones _ _ _ rfl _ _ at_
    | _ => exact id

theorem surrounds_drift (native : Native c) (outside : a.native = some b)
    (step : c.world.next b = some w) (sound : a.Sound c) : Drift c.world w := by
  have kept := next_outside native.good outside step
  cases next_moves step with
  | turned | locks | controls => cases a <;> cases outside
  | intrudes | occupies | leaves => exact .still kept rfl rfl rfl rfl
  | @tasks b ctx move =>
    refine taskMove_drift native.good native.kids kept ?_ ?_ move
    · cases a with
      | task d =>
        cases outside
        cases b with
        | exit | bury => exact sound.elim
        | _ => exact ⟨nofun, nofun⟩
      | _ => cases outside
    · cases a with
      | task d =>
        cases outside
        rintro hostPid pid shared rfl
        exact sound
      | _ => cases outside

theorem Facts.drift (facts : Facts w call g) (drift : Drift w w') : Facts w' call g where
  current := drift.outside.ticket.trans facts.current
  real := facts.real
  shown late := by
    have old := facts.shown late
    have kept := drift.call old.2
    simp only [World.shown, kept.2.1, kept.2.2]
    exact ⟨old.1, kept.1⟩
  child some := drift.child (facts.child some)

theorem FirstFacts.drift (facts : FirstFacts w call op g) (drift : Drift w w') :
    FirstFacts w' call op g :=
  { facts.toFacts.drift drift with
    late := facts.late
    early := fun flag => ⟨(facts.early flag).1, fun seen => drift.waits ((facts.early flag).2 seen)⟩
    asked := facts.asked }

theorem surrounds_steady (native : Native c) (steady : Steady c) (outside : a.native = some b)
    (step : c.world.next b = some w) (sound : a.Sound c) : Steady { c with world := w } := by
  have drift := surrounds_drift native outside step sound
  have kept := drift.outside
  have ctl (inside : c.pc.free = false) := native.inside kept inside
  have releasing (was : Releasing c.world c.pc) : Releasing w c.pc := by
    cases at_ : c.pc with
    | inCommit reply =>
      rw [at_] at was
      have same := ctl (by rw [at_]; rfl)
      simp only [Releasing, same]
      exact was
    | _ =>
      rw [at_] at was
      exact was
  have place := steady.place
  constructor
  case alive =>
    exact ⟨drift.alive.1.trans steady.alive.1, drift.alive.2.1.trans steady.alive.2.1,
      drift.alive.2.2 steady.alive.2.2⟩
  case ticket =>
    rw [kept.ticket]
    exact steady.ticket
  case begun =>
    rw [kept.ticket]
    exact fun began => drift.real (steady.begun began)
  case unreleased =>
    rw [kept.committed]
    exact fun active flag committed => releasing (steady.unreleased active flag committed)
  case released =>
    rw [kept.committed]
    exact steady.released
  case waits =>
    intro active flag seen
    obtain ⟨waits, begun⟩ | window := steady.waits active flag seen
    · exact .inl ⟨drift.waits waits, begun⟩
    · exact .inr (releasing window)
  case argument => exact steady.argument
  case real => exact steady.real
  case fixed =>
    intro valid
    obtain ⟨current, late, same⟩ := steady.fixed valid
    have call := drift.call late
    simp only [World.shown, call.2.1, call.2.2]
    exact ⟨kept.ticket.trans current, call.1, same⟩
  case child => exact fun some => drift.child (steady.child some)
  case clone => exact drift.clone steady.clone
  case place =>
    cases at_ : c.pc with
    | inFirst op reply =>
      rw [at_] at place
      have same := ctl (by rw [at_]; rfl)
      refine ⟨place.1, fun rq r here => ?_⟩
      rw [same] at here
      exact (place.2 rq r here).drift drift
    | gotFirst op reply answer =>
      rw [at_] at place
      refine ⟨place.1, place.2.imp (fun told => ?_) id⟩
      obtain ⟨g, ok, facts⟩ := told
      exact ⟨g, ok, facts.drift drift⟩
    | inCommit reply =>
      rw [at_] at place
      have same := ctl (by rw [at_]; rfl)
      simp only [Place, same, kept.committed]
      exact ⟨place.1, place.2.1, fun rq r here =>
        { (place.2.2 rq r here).toFacts.drift drift with late := (place.2.2 rq r here).late }⟩
    | gotCommit reply answer =>
      rw [at_] at place
      refine place.imp (fun told => ?_) id
      obtain ⟨g, ok, facts⟩ := told
      exact ⟨g, ok, { facts.toFacts.drift drift with late := facts.late }⟩
    | _ =>
      rw [at_] at place
      exact place

/-! ## The controls -/

theorem turned_transient {op : Nat} (steady : Steady c) (real : c.call.gate.ticket ≠ 0)
    (range : gateBegin ≤ op ∧ op ≤ gateCancel)
    (refused : (c.world.ctx.enter (some (c.call.request op)) true).2 = some (.error errno)) :
    transient errno = true := by
  have formed : ¬((c.call.request op).version ≠ gateAbi ∨ (c.call.request op).sized = false ∨
      (c.call.request op).reserved ≠ 0 ∨ (c.call.request op).ticket = 0 ∨
      (c.call.request op).op < gateBegin ∨ (c.call.request op).op > gateCancel ∨
      c.world.ctx.service = false) := by
    simp only [Admission.request, steady.alive.2.1, real, not_or]
    refine ⟨by simp, by simp, by simp, id, ?_, ?_, by simp⟩ <;> omega
  simp only [Context.enter, if_neg formed, steady.alive.1] at refused
  split at refused
  · cases refused
    rfl
  · simp at refused

theorem World.Good.released (good : w.Good) :
    w.ctx.gate.ticket ∈ w.committed ↔ GateState.running.rank ≤ w.ctx.gate.state.rank := by
  refine ⟨fun committed => ?_, fun late => good.record.committedNow late⟩
  have upto := (good.record.committedUpto _ committed).2
  exact Nat.le_of_not_lt fun early => Nat.lt_irrefl _ (upto early)

/-- What a control looked up in the gate. -/
structure Looked (c : Conn) (r : GateReply) : Prop where
  unloaded : ∀ rq s, c.world.ctx.ctl ≠ some (.loaded rq s)
  current : c.world.ctx.gate.ticket = c.call.next
  state : r.state = c.world.ctx.gate.state
  shown : GateState.admitted.rank ≤ r.state.rank → (r.call.nr, r.call.args) = c.world.shown
  childless : r.childHostPid = 0

/-- A control has ready what it looked up, or what it had ready before, with the child if any. -/
theorem ctlMove_readies {asks : Nat} (good : c.Good)
    (locked : ∃ pc, c.world.ctx.ctl = some pc ∧ pc.request = some (c.call.request asks))
    (move : CtlMove c.world.ctx ctx none)
    (here : ctx.ctl = some (.childing rq r) ∨ ctx.ctl = some (.copying rq r)) :
    Looked c r ∨ ∃ old, c.world.ctx.ctl = some (.childing rq old) ∧
      (r = old ∨ r = { old with
        childHostPid := c.world.ctx.gate.childHostPid
        childPid := c.world.ctx.gate.childPid
        childSharedMm := c.world.ctx.gate.childSharedMm } ∧
        c.world.ctx.gate.childHostPid ≠ 0) := by
  obtain ⟨pc, held, request⟩ := locked
  have holds := good.native.good.ctx.holds
  cases move with
  | began | committed | passed | found => obtain here | here := here <;> cases here
  | looked loaded early =>
    obtain here | here := here <;> cases here
    rw [Context.Holds, loaded] at holds
    rw [loaded] at held
    cases held
    cases request
    have current := holds.symm.trans good.ledger.books.ticket
    refine .inl ⟨by simp [loaded], current, rfl, fun late => ?_, rfl⟩
    simp only [Context.reply] at late ⊢
    rw [if_pos late]
    rfl
  | settled loaded final =>
    obtain here | here := here <;> cases here
    have telling := good.native.kids.telling
    rw [loaded] at telling
    rw [Context.Holds, loaded] at holds
    rw [loaded] at held
    cases held
    cases request
    have current := holds.1.symm.trans good.ledger.books.ticket
    exact .inl ⟨by simp [loaded], current, telling.2.2.1.trans holds.2.symm, fun _ => rfl,
      telling.2.1⟩
  | childless loaded absent =>
    obtain here | here := here <;> cases here
    exact .inr ⟨_, loaded, .inl rfl⟩
  | child loaded present =>
    obtain here | here := here <;> cases here
    exact .inr ⟨_, loaded, .inr ⟨rfl, present⟩⟩

theorem looked_facts (good : c.Good) (steady : Steady c) (at_ : c.pc = .inFirst op reply)
    (looked : Looked c r) : FirstFacts c.world c.call op r := by
  obtain ⟨-, current, state, shown, childless⟩ := looked
  have standing := good.ledger.at_ at_
  have place := steady.at_ at_
  have active := standing.active
  have real := (good.ledger.books.account.unfinished active).1
  have released := good.native.good.released
  rw [current] at released
  have unreleased (flag : c.call.committed = false) : c.call.next ∉ c.world.committed := by
    intro committed
    have window := steady.unreleased active flag committed
    rw [at_] at window
    exact window
  have waits (flag : c.call.committed = false)
      (seen : c.call.gate.state = .admitted ∨ c.call.prepared = true) :
      c.world.ctx.gate.state = .admitted := by
    obtain waits | window := steady.waits active flag seen
    · exact waits.1
    · rw [at_] at window
      exact window.elim
  constructor
  case toFacts =>
    refine ⟨current, ?_, fun late => ⟨shown late, state ▸ late⟩, fun some => absurd childless some⟩
    rw [state]
    exact steady.begun (current ▸ real)
  case late =>
    intro flag
    rw [state]
    exact released.mp (steady.released flag).1
  case early =>
    intro flag
    rw [state]
    exact ⟨Nat.lt_of_not_le fun late => unreleased flag (released.mpr late), id⟩
  case asked =>
    intro executes flag
    rw [state]
    exact waits flag (place.1 executes flag)

theorem inFirst_place (good : c.Good) (steady : Steady c) (at_ : c.pc = .inFirst op reply)
    (move : CtlMove c.world.ctx ctx none) (rq : GateRequest) (r : GateReply)
    (here : ctx.ctl = some (.childing rq r) ∨ ctx.ctl = some (.copying rq r)) :
    FirstFacts c.world c.call op r := by
  have place := steady.at_ at_
  obtain looked | ⟨old, loaded, rfl | ⟨rfl, present⟩⟩ :=
    ctlMove_readies good (good.native.at_ at_) move here
  · exact looked_facts good steady at_ looked
  · exact place.2 _ _ (.inl loaded)
  · have facts := place.2 _ _ (.inl loaded)
    exact { facts with
      toFacts := ⟨facts.current, facts.real, facts.shown, fun _ => present⟩ }

theorem Facts.same (facts : Facts w call g) (gate : w'.ctx.gate = w.ctx.gate) :
    Facts w' call g := by
  have shown : w'.shown = w.shown := by simp only [World.shown, gate]
  constructor
  case current => rw [gate]; exact facts.current
  case real => exact facts.real
  case shown => rw [gate, shown]; exact facts.shown
  case child => rw [gate]; exact facts.child

theorem FirstFacts.same (facts : FirstFacts w call op g) (gate : w'.ctx.gate = w.ctx.gate) :
    FirstFacts w' call op g :=
  { facts.toFacts.same gate with
    late := facts.late
    early := by rw [gate]; exact facts.early
    asked := facts.asked }

theorem CommitFacts.same (facts : CommitFacts w call g) (gate : w'.ctx.gate = w.ctx.gate) :
    CommitFacts w' call g :=
  { facts.toFacts.same gate with late := facts.late }

theorem Steady.still {pc : ConnPc} {log : List Event} (steady : Steady c)
    (gate : w.ctx.gate = c.world.ctx.gate) (committed : w.committed = c.world.committed)
    (alive : w.ctx.dead = c.world.ctx.dead ∧ w.ctx.service = c.world.ctx.service ∧
      w.ctx.task = c.world.ctx.task) (releasing : Releasing c.world c.pc → Releasing w pc)
    (place : Place w c.call pc) : Steady { c with world := w, pc := pc, log := log } := by
  have shown : w.shown = c.world.shown := by simp only [World.shown, gate]
  constructor
  case alive => rw [alive.1, alive.2.1, alive.2.2]; exact steady.alive
  case ticket => rw [gate]; exact steady.ticket
  case begun => rw [gate]; exact steady.begun
  case unreleased =>
    rw [committed]
    exact fun active flag old => releasing (steady.unreleased active flag old)
  case released => rw [committed]; exact steady.released
  case waits =>
    rw [gate]
    exact fun active flag seen => (steady.waits active flag seen).imp id releasing
  case argument => exact steady.argument
  case real => exact steady.real
  case fixed => rw [gate, shown]; exact steady.fixed
  case child => rw [gate]; exact steady.child
  case clone => rw [gate]; exact steady.clone
  case place => exact place

theorem ctlMove_still {c : Context} (move : CtlMove c c' answer) :
    (c'.dead = c.dead ∧ c'.service = c.service ∧ c'.task = c.task) ∧
      (c'.gate = c.gate ∨ (∃ rq s, c.ctl = some (.loaded rq s) ∧ answer = none ∧
        (rq.op = gateBegin ∧ rq.ticket = c.gate.ticket + 1 ∧ c'.gate = .begin rq.ticket ∨
          rq.op = gateCommit ∧ s = .admitted ∧ rq.ticket = c.gate.ticket ∧
            c'.gate = { c.gate with state := .running }))) := by
  cases move with
  | began at_ op next => exact ⟨⟨rfl, rfl, rfl⟩, .inr ⟨_, _, at_, rfl, .inl ⟨op, next, rfl⟩⟩⟩
  | committed at_ op same =>
    exact ⟨⟨rfl, rfl, rfl⟩, .inr ⟨_, _, at_, rfl, .inr ⟨op, rfl, same, rfl⟩⟩⟩
  | _ => exact ⟨⟨rfl, rfl, rfl⟩, .inl rfl⟩

theorem began_steady (good : c.Good) (steady : Steady c) (at_ : c.pc = .inFirst op reply)
    (move : CtlMove c.world.ctx ctx none) (begins : c.call.begun = false)
    (asked : rq.ticket = c.call.next) (next : rq.ticket = c.world.ctx.gate.ticket + 1)
    (gate : ctx.gate = .begin rq.ticket) : Steady { c with world := c.world.control ctx none } := by
  have place := steady.at_ at_
  have standing := good.ledger.at_ at_
  have active := standing.active
  -- The ticket is ahead of every commit, so nothing of it has been released.
  have ahead : c.call.next ∉ c.world.committed := by
    intro committed
    have old := good.native.good.committed_le committed
    omega
  have kept : (c.world.control ctx none).committed = c.world.committed := by
    simp [World.control, gate, SyscallGate.begin]
  have still := (ctlMove_still move).1
  have uncommitted (flag : c.call.committed = true) : False := ahead (steady.released flag).1
  constructor
  case alive =>
    simp only [World.control, still.1, still.2.1, still.2.2]
    exact steady.alive
  case ticket => exact .inl (by simp only [World.control, gate]; exact asked)
  case begun => exact fun _ none => by simp [World.control, gate, SyscallGate.begin] at none
  case unreleased => exact fun _ _ committed => absurd (kept ▸ committed) ahead
  case released => exact fun flag => (uncommitted flag).elim
  case waits =>
    intro _ flag seen
    obtain ⟨-, begun⟩ | window := steady.waits active flag seen
    · exact absurd (begins.symm.trans begun) (by decide)
    · rw [at_] at window
      exact window.elim
  case argument => exact steady.argument
  case real => exact steady.real
  case fixed =>
    intro valid
    have current := (steady.fixed valid).1
    omega
  case child => exact fun child => absurd (good.native.born child) ahead
  case clone => exact fun child => by simp [World.control, gate, SyscallGate.begin] at child
  case place =>
    simp only [at_]
    refine ⟨place.1, fun asks r here => ?_⟩
    cases move with
    | began => obtain here | here := here <;> cases here
    | _ =>
      have same : c.world.ctx.gate.ticket = rq.ticket := congrArg SyscallGate.ticket gate
      omega

theorem inFirst_steady (good : c.Good) (steady : Steady c) (at_ : c.pc = .inFirst op reply)
    (move : CtlMove c.world.ctx ctx none) :
    Steady { c with world := c.world.control ctx none } := by
  obtain ⟨pc, held, request⟩ := good.native.at_ at_
  obtain ⟨alive, same | ⟨rq, s, loaded, -, begins | commits⟩⟩ := ctlMove_still move
  · have place := steady.place
    refine steady.still same (control_committed c.world same) alive ?_ ?_
    · rw [at_]
      exact id
    · rw [at_] at place ⊢
      exact ⟨place.1, fun rq r here => (inFirst_place good steady at_ move rq r here).same same⟩
  · rw [loaded] at held
    cases held
    cases request
    have first : c.call.begun = false := by
      cases flag : c.call.begun with
      | false => rfl
      | true =>
        have op := begins.1
        simp only [Admission.request, Admission.firstOp, flag, if_true] at op
        exact absurd op (by decide)
    exact began_steady good steady at_ move first good.ledger.books.ticket begins.2.1 begins.2.2
  · rw [loaded] at held
    cases held
    cases request
    have op := commits.1
    simp only [Admission.request, Admission.firstOp] at op
    split at op <;> exact absurd op (by decide)

theorem ctlMove_acts {c : Context}
    (move : CtlMove c c' none) (loaded : c.ctl = some (.loaded rq s)) :
    c'.ctl = some (.answering rq) ∧
      (rq.op = gateCommit → s = .admitted → c'.gate = { c.gate with state := .running }) := by
  cases move with
  | began here op =>
    rw [loaded] at here
    cases here
    exact ⟨rfl, fun commits => absurd (op.symm.trans commits) (by decide)⟩
  | committed here =>
    rw [loaded] at here
    cases here
    exact ⟨rfl, fun _ _ => rfl⟩
  | passed here _ _ unmoved =>
    rw [loaded] at here
    cases here
    exact ⟨rfl, fun commits admitted => absurd admitted (unmoved commits).2⟩
  | found here | looked here | settled here | childless here | child here =>
    rw [loaded] at here
    cases here

theorem inCommit_place (good : c.Good) (steady : Steady c) (at_ : c.pc = .inCommit reply)
    (move : CtlMove c.world.ctx ctx none) (rq : GateRequest) (r : GateReply)
    (here : ctx.ctl = some (.childing rq r) ∨ ctx.ctl = some (.copying rq r)) :
    CommitFacts c.world c.call r := by
  have place := steady.at_ at_
  obtain looked | ⟨old, loaded, rfl | ⟨rfl, present⟩⟩ :=
    ctlMove_readies good (good.native.at_ at_) move here
  · have released := good.native.good.released
    rw [looked.current] at released
    have late := released.mp (place.2.1 looked.unloaded)
    rw [← looked.state] at late
    refine ⟨⟨looked.current, ?_, fun seen => ⟨looked.shown seen, looked.state ▸ seen⟩,
      fun some => absurd looked.childless some⟩, late⟩
    intro none
    rw [none] at late
    exact absurd late (by decide)
  · exact place.2.2 _ _ (.inl loaded)
  · have facts := place.2.2 _ _ (.inl loaded)
    exact ⟨⟨facts.current, facts.real, facts.shown, fun _ => present⟩, facts.late⟩

theorem releases_steady (good : c.Good) (steady : Steady c) (at_ : c.pc = .inCommit reply)
    (move : CtlMove c.world.ctx ctx none) (asked : rq.ticket = c.call.next)
    (same : rq.ticket = c.world.ctx.gate.ticket)
    (loaded : c.world.ctx.ctl = some (.loaded rq .admitted))
    (gate : ctx.gate = { c.world.ctx.gate with state := .running }) :
    Steady { c with world := c.world.control ctx none } := by
  have standing := good.ledger.standing
  have holds := good.native.good.ctx.holds
  rw [at_] at standing
  rw [Context.Holds, loaded] at holds
  have waited := holds rfl
  have active := standing.1.active
  have flag := standing.1.open_
  have current : c.world.ctx.gate.ticket = c.call.next := same.symm.trans asked
  have still := (ctlMove_still move).1
  have goes := (ctlMove_acts move loaded).1
  have moved : ∀ rq s, ctx.ctl ≠ some (.loaded rq s) :=
    (ctlMove_goes move loaded rfl).2
  have committed : (c.world.control ctx none).committed = c.call.next :: c.world.committed := by
    simp [World.control, gate, waited, current]
  have shown : (c.world.control ctx none).shown = c.world.shown := by
    simp only [World.shown, World.control, gate]
  constructor
  case alive =>
    simp only [World.control, still.1, still.2.1, still.2.2]
    exact steady.alive
  case ticket => exact .inl (by simp only [World.control, gate]; exact current)
  case begun => exact fun _ none => by simp [World.control, gate] at none
  case unreleased =>
    intro _ _ _
    simp only [at_]
    exact moved
  case released => exact fun set_ => absurd (flag.symm.trans set_) (by decide)
  case waits =>
    intro _ _ _
    refine .inr ?_
    simp only [at_]
    exact moved
  case argument => exact steady.argument
  case real => exact steady.real
  case fixed =>
    intro valid
    obtain ⟨-, -, fixed⟩ := steady.fixed valid
    rw [shown]
    simp only [World.control, gate]
    exact ⟨current, by decide, fixed⟩
  case child =>
    intro child
    simp only [World.control, gate]
    exact steady.child child
  case clone =>
    simp only [World.control, gate]
    exact steady.clone
  case place =>
    simp only [at_]
    refine ⟨fun rq s here => absurd here (moved rq s), fun _ => ?_, fun rq r here => ?_⟩
    · rw [committed]
      exact List.mem_cons_self
    · simp only [World.control, goes] at here
      obtain here | here := here <;> cases here

theorem inCommit_steady (good : c.Good) (steady : Steady c) (at_ : c.pc = .inCommit reply)
    (move : CtlMove c.world.ctx ctx none) :
    Steady { c with world := c.world.control ctx none } := by
  have place := steady.at_ at_
  obtain ⟨pc, held, request⟩ := good.native.at_ at_
  obtain ⟨alive, same | ⟨rq, s, loaded, -, begins | commits⟩⟩ := ctlMove_still move
  · have moved := (ctlMove_goes move held request).2
    have past : c.call.next ∈ c.world.committed := by
      refine place.2.1 fun rq s loaded => ?_
      have admitted := place.1 rq s loaded
      have holds := good.native.good.ctx.holds
      rw [Context.Holds, loaded] at holds
      have op : rq.op = gateCommit := by
        rw [loaded] at held
        cases held
        cases request
        rfl
      have moves := (ctlMove_acts move loaded).2 op admitted
      have runs : c.world.ctx.gate.state = .running :=
        congrArg SyscallGate.state (same.symm.trans moves)
      exact absurd (runs.symm.trans (holds admitted)) (by decide)
    refine steady.still same (control_committed c.world same) alive ?_ ?_
    · rw [at_]
      exact fun _ => moved
    · rw [at_]
      refine ⟨fun rq s here => absurd here (moved rq s), fun _ => ?_, fun rq r here => ?_⟩
      · rw [control_committed c.world same]
        exact past
      · exact (inCommit_place good steady at_ move rq r here).same same
  · rw [loaded] at held
    cases held
    cases request
    have same : gateCommit = gateBegin := begins.1
    exact absurd same (by decide)
  · obtain ⟨-, rfl, same, gate⟩ := commits
    have asked : rq.ticket = c.call.next := by
      rw [loaded] at held
      cases held
      cases request
      exact good.ledger.books.ticket
    exact releases_steady good steady at_ move asked same loaded gate

/-! ## The returns of the controls -/

theorem act_transient {c : Context} (current : rq.ticket = c.gate.ticket ∨
      rq.op = gateBegin ∧ rq.ticket = c.gate.ticket + 1 ∧ rq.ticket ≤ ticketMax)
    (acted : c.act rq s = .error errno) : transient errno = true := by
  simp only [Context.act, Context.begin] at acted
  split at acted
  case isTrue begins =>
    obtain same | ⟨-, next, bound⟩ := current
    · exact absurd same begins.2
    · rw [if_neg (by omega)] at acted
      split at acted
      · cases acted
        rfl
      rw [if_neg (by omega), if_neg (by simpa using next)] at acted
      split at acted <;> cases acted
      rfl
  case isFalse repeats =>
    split at acted
    case isTrue other =>
      obtain same | ⟨op, -, -⟩ := current
      · exact absurd same other
      · exact absurd ⟨op, other⟩ repeats
    case isFalse =>
      split at acted
      case isFalse => cases acted
      case isTrue =>
        split at acted
        · cases acted
          rfl
        · split at acted <;> cases acted

theorem advance_copies {c : Context} (step : c.advance false = some (c', answer))
    (copying : c.ctl = some (.copying rq r)) : answer = some (.ok (some r)) := by
  simp only [Context.advance, copying] at step
  cases step
  rfl

theorem firstReturns_steady {answer : Answer} (good : c.Good) (steady : Steady c)
    (at_ : c.pc = .inFirst op reply) (step : c.world.ctx.advance false = some (ctx, some answer)) :
    Steady { c with
      world := c.world.control ctx (some answer)
      pc := .gotFirst op reply answer } := by
  have move := advance_moves step
  have place := steady.at_ at_
  have locked := good.native.at_ at_
  have standing := good.ledger.at_ at_
  obtain ⟨pc, held, request⟩ := locked
  obtain ⟨-, gate⟩ := ctlMove_returns move
  have result : (∃ g, answer = .ok (some g) ∧ FirstFacts c.world c.call op g) ∨
      ∃ errno, answer = .error errno ∧ transient errno = true := by
    cases move with
    | @refused rq s errno here acted =>
      refine .inr ⟨errno, rfl, act_transient ?_ acted⟩
      rw [here] at held
      cases held
      cases request
      have asked : (c.call.request c.call.firstOp).ticket = c.call.next := good.ledger.books.ticket
      obtain current | ⟨-, begins, next, bound⟩ := steady.ticket
      · exact .inl (asked.trans current.symm)
      · refine .inr ⟨?_, asked.trans next.symm, Nat.le_trans (Nat.le_of_eq asked) bound⟩
        simp only [Admission.request, Admission.firstOp, begins]
        rfl
    | cancelled here op =>
      rw [here] at held
      cases held
      cases request
      simp only [Admission.request, Admission.firstOp] at op
      split at op <;> exact absurd op (by decide)
    | unretired => exact .inr ⟨_, rfl, rfl⟩
    | lost here => cases advance_copies step here
    | answered here => exact .inl ⟨_, rfl, place.2 _ _ (.inr here)⟩
  refine steady.still gate (control_committed c.world gate) (ctlMove_still move).1 ?_ ?_
  · rw [at_]
    exact id
  · refine ⟨place.1, result.imp (fun told => ?_) id⟩
    obtain ⟨g, ok, facts⟩ := told
    exact ⟨g, ok, facts.same gate⟩

theorem commitReturns_steady {answer : Answer} (good : c.Good) (steady : Steady c)
    (at_ : c.pc = .inCommit reply) (step : c.world.ctx.advance false = some (ctx, some answer))
    (prompt : ∀ rq told, c.world.ctx.ctl = some (.settling rq told) →
      c.world.ctx.sysPending = false) :
    Steady { c with
      world := c.world.control ctx (some answer)
      pc := .gotCommit reply answer } := by
  have move := advance_moves step
  have place := steady.at_ at_
  have locked := good.native.at_ at_
  have standing := good.ledger.at_ at_
  obtain ⟨pc, held, request⟩ := locked
  obtain ⟨-, gate⟩ := ctlMove_returns move
  have result : ∃ g, answer = .ok (some g) ∧ CommitFacts c.world c.call g := by
    cases move with
    | refused here acted =>
      -- `COMMIT` found the call `ADMITTED`, so it has nothing to refuse.
      have admitted := place.1 _ _ here
      rw [here] at held
      cases held
      cases request
      subst admitted
      have flag := standing.1.open_
      have waits := steady.waits standing.1.active flag (.inr standing.1.ready)
      rw [at_] at waits
      obtain ⟨-, begun⟩ | window := waits
      · obtain current | ⟨-, unbegun, -⟩ := steady.ticket
        · have asked : c.call.gate.ticket = c.world.ctx.gate.ticket :=
            good.ledger.books.ticket.trans current.symm
          simp [Context.act, asked, Admission.request, gateCommit, gateBegin] at acted
        · exact absurd (unbegun.symm.trans begun) (by decide)
      · exact absurd here (window _ _)
    | cancelled here op =>
      rw [here] at held
      cases held
      cases request
      have same : gateCommit = gateCancel := op
      exact absurd same (by decide)
    | unretired here pending => exact absurd (pending.symm.trans (prompt _ _ here)) (by decide)
    | lost here => cases advance_copies step here
    | answered here => exact ⟨_, rfl, place.2.2 _ _ (.inr here)⟩
  obtain ⟨g, rfl, facts⟩ := result
  refine steady.still gate (control_committed c.world gate) (ctlMove_still move).1 ?_ ?_
  · exact fun _ => ⟨_, rfl⟩
  · exact .inl ⟨g, rfl, facts.same gate⟩

end Vmctx.Gate
