import Vmctx.Gate.Admission
/-!
# A connection and its gate

`serve` answers the requests of a connection one after another. While it is inside a control, and
between any two of its steps, the task and other controls of the context take theirs. The log keeps
what was done natively and what was answered, newest first.
-/

namespace Vmctx.Gate

/-- Where `serve` is. -/
inductive ConnPc
  | idle
  | first (op : CallOp) (reply : CallReply)
  | inFirst (op : CallOp) (reply : CallReply)
  | gotFirst (op : CallOp) (reply : CallReply) (answer : Answer)
  | commit (reply : CallReply)
  | inCommit (reply : CallReply)
  | gotCommit (reply : CallReply) (answer : Answer)
  | birth (reply : CallReply)
  | state (reply : CallReply)
  | complete (reply : CallReply)
  | failed (errno : Errno) (reply : CallReply)
  | sending (reply : CallReply)
  | closed

/-- What a connection has done. -/
inductive Event
  | request (op : CallOp)
  | credit
  | setcpu
  | accepted (ticket : Nat)
  | observed (ticket : Nat) (target : MmBinding) (call : Call)
  | memory (ticket : Nat) (call : Call)
  | commits (ticket : Nat)
  | committed (ticket : Nat)
  | childEnded (ticket : Nat)
  | failed (errno : Errno)
  | replied (reply : CallReply) (gate : GateReply)
  deriving DecidableEq, Repr

/-- The source's end of a forwarded call. -/
structure Conn where
  world : World
  call : Admission
  pc : ConnPc
  log : List Event

inductive ConnAct
  | request (rq : CallRequest) (credit setcpu : Option Errno)
  | enter (authorized : Bool)
  | advance (fault : Bool)
  | took (snapshot : Except Errno MmBinding)
  | tookCommit
  | birth (outcome : Admission.Birth)
  | state (dead : Option Nat)
  | completion (error : Option Errno)
  | failure (ended : Option Nat)
  | send (ok : Bool)
  | otherEnter (assist : Option Nat)
  | otherReturn
  | task (a : TaskAct)

def Effect.event (ticket : Nat) : Effect → Event
  | .observed target call => .observed ticket target call
  | .memory call => .memory ticket call
  | .childEnded => .childEnded ticket

namespace Conn

def note (c : Conn) (events : List Event) : Conn := { c with log := events.reverse ++ c.log }

def fails (c : Conn) (errno : Errno) (reply : CallReply) : Conn :=
  { c with pc := .failed errno reply, log := .failed errno :: c.log }

def follow (c : Conn) (part : Part) : Conn :=
  let c := { c with call := part.call }.note (part.effects.map (Effect.event c.call.gate.ticket))
  match part.next with
  | .commit => { c with pc := .commit part.reply }
  | .birth => { c with pc := .birth part.reply }
  | .state => { c with pc := .state part.reply }
  | .reply => { c with pc := .sending part.reply }
  | .complete => { c with pc := .complete part.reply }
  | .fail errno => c.fails errno part.reply

def request (c : Conn) (rq : CallRequest) (credit setcpu : Option Errno) : Conn :=
  let c := c.note [.request rq.op]
  match rq.op with
  | .prepare =>
    match c.call.accepts rq with
    | .error errno => c.fails errno .zero
    | .ok () =>
      let c := c.note [.credit]
      match credit with
      | some errno => c.fails errno .zero
      | none =>
        let c := c.note [.setcpu]
        match setcpu with
        | some errno => c.fails errno .zero
        | none =>
          let next := c.call.next + 1
          let c := c.note [.accepted next]
          { c with
            call := .fresh next
            pc := .first .prepare { CallReply.zero with ticket := next } }
  | op =>
    match c.call.continues rq with
    | .error errno => c.fails errno .zero
    | .ok () => { c with pc := .first op { CallReply.zero with ticket := c.call.gate.ticket } }

def enter (c : Conn) (authorized : Bool) : Option Conn :=
  match c.pc with
  | .first op reply =>
    let out := c.world.ctx.enter (some (c.call.request c.call.firstOp)) authorized
    some { c with
      world := c.world.control out.1 out.2
      pc := match out.2 with
        | some answer => .gotFirst op reply answer
        | none => .inFirst op reply }
  | .commit reply =>
    let out := c.world.ctx.enter (some (c.call.request gateCommit)) authorized
    some { c with
      world := c.world.control out.1 out.2
      log := .commits c.call.gate.ticket :: c.log
      pc := match out.2 with
        | some answer => .gotCommit reply answer
        | none => .inCommit reply }
  | _ => none

def advance (c : Conn) (fault : Bool) : Option Conn :=
  match c.world.ctx.advance fault with
  | none => none
  | some out =>
    match c.pc with
    | .inFirst op reply =>
      some { c with
        world := c.world.control out.1 out.2
        pc := match out.2 with
          | some answer => .gotFirst op reply answer
          | none => c.pc }
    | .inCommit reply =>
      some { c with
        world := c.world.control out.1 out.2
        pc := match out.2 with
          | some answer => .gotCommit reply answer
          | none => c.pc }
    | _ => none

def snapshotValid : Except Errno MmBinding → Bool
  | .ok binding => binding.valid
  | .error _ => true

def returned (ticket : Nat) : Answer → List Event
  | .ok _ => [.committed ticket]
  | .error _ => []

/-- A failure is taken up: an ended task is reported, any other failure closes the connection. -/
def failure (c : Conn) (errno : Errno) (reply : CallReply) (ended : Option Nat) : Conn :=
  match ended with
  | some status =>
    if endedErrno errno then
      { c with
        call := { c.call with active := false }
        pc := .sending { reply with
          ended := true
          endedStatus := status
          state := .complete
          data := false } }
    else { c with pc := .closed }
  | none => { c with pc := .closed }

/-- The steps of `source_admission_step` between its controls. -/
def own (c : Conn) : ConnAct → Option Conn
  | .took snapshot =>
    match c.pc with
    | .gotFirst op reply answer =>
      if snapshotValid snapshot then some (c.follow (c.call.afterFirst op reply answer snapshot))
      else none
    | _ => none
  | .tookCommit =>
    match c.pc with
    | .gotCommit reply answer =>
      let part := c.call.afterCommit reply answer
      some ((c.note (returned c.call.gate.ticket answer)).follow part)
    | _ => none
  | .birth outcome =>
    match c.pc with
    | .birth reply => some (c.follow (c.call.birth reply outcome))
    | _ => none
  | .state dead =>
    match c.pc with
    | .state reply => some (c.follow (c.call.finish reply dead))
    | _ => none
  | .completion error =>
    match c.pc, error with
    | .complete reply, none => some { c with pc := .sending { reply with data := true } }
    | .complete reply, some errno => some (c.fails errno reply)
    | _, _ => none
  | .failure ended =>
    match c.pc with
    | .failed errno reply => some (c.failure errno reply ended)
    | _ => none
  | .send ok =>
    match c.pc with
    | .sending reply =>
      if ok then some { c with pc := .idle, log := .replied reply c.call.gate :: c.log }
      else some { c with pc := .closed }
    | _ => none
  | _ => none

/-- A step of the connection, of the task, or of another thread's control. -/
def next (c : Conn) : ConnAct → Option Conn
  | .request rq credit setcpu =>
    match c.pc with
    | .idle => some (c.request rq credit setcpu)
    | _ => none
  | .enter authorized => c.enter authorized
  | .advance fault => c.advance fault
  | .otherEnter assist => (c.world.next (.otherEnter assist)).map fun w => { c with world := w }
  | .otherReturn => (c.world.next .otherReturn).map fun w => { c with world := w }
  | .task a => (c.world.next (.task a)).map fun w => { c with world := w }
  | a => c.own a

def new : Conn := ⟨.new true, .new, .idle, []⟩

end Conn

/-! ## What a step does -/

/-- The gate's own step behind one that is not a control of the connection. -/
def ConnAct.native : ConnAct → Option Act
  | .otherEnter assist => some (.otherEnter assist)
  | .otherReturn => some .otherReturn
  | .task a => some (.task a)
  | _ => none

inductive ConnMove (c : Conn) : ConnAct → Conn → Prop
  | surrounds {a : ConnAct} {b : Act} {w : World} (outside : a.native = some b)
      (step : c.world.next b = some w) : ConnMove c a { c with world := w }
  | requested {rq : CallRequest} {credit setcpu : Option Errno} (at_ : c.pc = .idle) :
      ConnMove c (.request rq credit setcpu) (c.request rq credit setcpu)
  | firstTurned {op : CallOp} {reply : CallReply} {errno : Errno} {authorized : Bool}
      (at_ : c.pc = .first op reply)
      (refused : (c.world.ctx.enter (some (c.call.request c.call.firstOp)) authorized).2 =
        some (.error errno)) :
      ConnMove c (.enter authorized) { c with pc := .gotFirst op reply (.error errno) }
  | firstEnters {op : CallOp} {reply : CallReply} {authorized : Bool}
      (at_ : c.pc = .first op reply) (free : c.world.ctx.ctl = none) :
      ConnMove c (.enter authorized) { c with
        world := { c.world with ctx := { c.world.ctx with
          ctl := some (.loaded (c.call.request c.call.firstOp) c.world.ctx.gate.state) } }
        pc := .inFirst op reply }
  | commitTurned {reply : CallReply} {errno : Errno} {authorized : Bool}
      (at_ : c.pc = .commit reply)
      (refused : (c.world.ctx.enter (some (c.call.request gateCommit)) authorized).2 =
        some (.error errno)) :
      ConnMove c (.enter authorized) { c with
        log := .commits c.call.gate.ticket :: c.log
        pc := .gotCommit reply (.error errno) }
  | commitEnters {reply : CallReply} {authorized : Bool} (at_ : c.pc = .commit reply)
      (free : c.world.ctx.ctl = none) :
      ConnMove c (.enter authorized) { c with
        world := { c.world with ctx := { c.world.ctx with
          ctl := some (.loaded (c.call.request gateCommit) c.world.ctx.gate.state) } }
        log := .commits c.call.gate.ticket :: c.log
        pc := .inCommit reply }
  | advances {ctx : Context} {fault : Bool}
      (step : c.world.ctx.advance fault = some (ctx, none))
      (at_ : (∃ op reply, c.pc = .inFirst op reply) ∨ ∃ reply, c.pc = .inCommit reply) :
      ConnMove c (.advance fault) { c with world := c.world.control ctx none }
  | firstReturns {ctx : Context} {op : CallOp} {reply : CallReply} {answer : Answer}
      {fault : Bool} (at_ : c.pc = .inFirst op reply)
      (step : c.world.ctx.advance fault = some (ctx, some answer)) :
      ConnMove c (.advance fault) { c with
        world := c.world.control ctx (some answer)
        pc := .gotFirst op reply answer }
  | commitReturns {ctx : Context} {reply : CallReply} {answer : Answer} {fault : Bool}
      (at_ : c.pc = .inCommit reply)
      (step : c.world.ctx.advance fault = some (ctx, some answer)) :
      ConnMove c (.advance fault) { c with
        world := c.world.control ctx (some answer)
        pc := .gotCommit reply answer }
  | took {op : CallOp} {reply : CallReply} {answer : Answer} {snapshot : Except Errno MmBinding}
      (at_ : c.pc = .gotFirst op reply answer) (valid : Conn.snapshotValid snapshot = true) :
      ConnMove c (.took snapshot) (c.follow (c.call.afterFirst op reply answer snapshot))
  | tookCommit {reply : CallReply} {answer : Answer} (at_ : c.pc = .gotCommit reply answer) :
      ConnMove c .tookCommit ((c.note (Conn.returned c.call.gate.ticket answer)).follow
        (c.call.afterCommit reply answer))
  | births {reply : CallReply} {outcome : Admission.Birth} (at_ : c.pc = .birth reply) :
      ConnMove c (.birth outcome) (c.follow (c.call.birth reply outcome))
  | states {reply : CallReply} {dead : Option Nat} (at_ : c.pc = .state reply) :
      ConnMove c (.state dead) (c.follow (c.call.finish reply dead))
  | completes {reply : CallReply} (at_ : c.pc = .complete reply) :
      ConnMove c (.completion none) { c with pc := .sending { reply with data := true } }
  | spoils {reply : CallReply} {errno : Errno} (at_ : c.pc = .complete reply) :
      ConnMove c (.completion (some errno)) (c.fails errno reply)
  | failure {errno : Errno} {reply : CallReply} {ended : Option Nat}
      (at_ : c.pc = .failed errno reply) :
      ConnMove c (.failure ended) (c.failure errno reply ended)
  | sends {reply : CallReply} (at_ : c.pc = .sending reply) :
      ConnMove c (.send true) { c with pc := .idle, log := .replied reply c.call.gate :: c.log }
  | cut {reply : CallReply} (at_ : c.pc = .sending reply) :
      ConnMove c (.send false) { c with pc := .closed }

namespace Conn

variable {c c' : Conn} {a : ConnAct}

theorem enter_moves {authorized : Bool} (step : c.enter authorized = some c') :
    ConnMove c (.enter authorized) c' := by
  simp only [Conn.enter] at step
  split at step
  case h_1 op reply at_ =>
    cases step
    generalize entered : c.world.ctx.enter _ authorized = out
    obtain ⟨same, errno, answer⟩ | ⟨rq, asked, free, answer, -, after⟩ := Gate.enter_moves entered
    · rw [same, answer, control_frame c.world rfl]
      exact .firstTurned at_ (by rw [entered, answer])
    · have gate : out.1.gate = c.world.ctx.gate := by rw [after]
      cases asked
      rw [control_frame c.world gate, after, answer]
      exact .firstEnters at_ free
  case h_2 reply at_ =>
    cases step
    generalize entered : c.world.ctx.enter _ authorized = out
    obtain ⟨same, errno, answer⟩ | ⟨rq, asked, free, answer, -, after⟩ := Gate.enter_moves entered
    · rw [same, answer, control_frame c.world rfl]
      exact .commitTurned at_ (by rw [entered, answer])
    · have gate : out.1.gate = c.world.ctx.gate := by rw [after]
      cases asked
      rw [control_frame c.world gate, after, answer]
      exact .commitEnters at_ free
  case h_3 => cases step

theorem advance_moves {fault : Bool} (step : c.advance fault = some c') :
    ConnMove c (.advance fault) c' := by
  simp only [Conn.advance] at step
  split at step
  case h_1 => cases step
  case h_2 out moved =>
    obtain ⟨ctx, answer⟩ := out
    split at step
    case h_1 op reply at_ =>
      cases step
      cases answer with
      | none => exact .advances moved (.inl ⟨op, reply, at_⟩)
      | some answer => exact .firstReturns at_ moved
    case h_2 reply at_ =>
      cases step
      cases answer with
      | none => exact .advances moved (.inr ⟨reply, at_⟩)
      | some answer => exact .commitReturns at_ moved
    case h_3 => cases step

theorem own_moves (step : c.own a = some c') : ConnMove c a c' := by
  cases a with
  | took snapshot =>
    simp only [Conn.own] at step
    split at step
    case h_1 op reply answer at_ =>
      split at step
      case isTrue valid =>
        cases step
        exact .took at_ valid
      case isFalse => cases step
    case h_2 => cases step
  | tookCommit =>
    simp only [Conn.own] at step
    split at step
    case h_1 reply answer at_ =>
      cases step
      exact .tookCommit at_
    case h_2 => cases step
  | birth outcome =>
    simp only [Conn.own] at step
    split at step
    case h_1 reply at_ =>
      cases step
      exact .births at_
    case h_2 => cases step
  | state dead =>
    simp only [Conn.own] at step
    split at step
    case h_1 reply at_ =>
      cases step
      exact .states at_
    case h_2 => cases step
  | completion error =>
    simp only [Conn.own] at step
    split at step
    case h_1 reply at_ =>
      cases step
      exact .completes at_
    case h_2 reply errno at_ =>
      cases step
      exact .spoils at_
    case h_3 => cases step
  | failure ended =>
    simp only [Conn.own] at step
    split at step
    case h_1 errno reply at_ =>
      cases step
      exact .failure at_
    case h_2 => cases step
  | send ok =>
    simp only [Conn.own] at step
    split at step
    case h_1 reply at_ =>
      cases ok with
      | true =>
        cases step
        exact .sends at_
      | false =>
        cases step
        exact .cut at_
    case h_2 => cases step
  | _ => cases step

theorem next_moves (step : c.next a = some c') : ConnMove c a c' := by
  cases a with
  | request rq credit setcpu =>
    simp only [Conn.next] at step
    split at step
    case h_1 at_ =>
      cases step
      exact .requested at_
    case h_2 => cases step
  | enter authorized => exact enter_moves step
  | advance fault => exact advance_moves step
  | otherEnter assist | otherReturn | task a =>
    obtain ⟨w, moved, rfl⟩ := Option.map_eq_some_iff.mp step
    exact .surrounds rfl moved
  | took | tookCommit | birth | state | completion | failure | send =>
    simp only [Conn.next] at step
    exact own_moves step

end Conn

def ConnReached : Conn → Prop := System.Reach (System.Computed Conn.next) Conn.new

end Vmctx.Gate
