import Vmctx.Gate.ExactlyOnce
/-!
# The executor's side of a call

`forward` sends `PREPARE` and then one request after another, each chosen by the reply to the one
before, until a reply says that the call is complete. The connection is reliable and ordered, and
each side waits for the other, so at most one message is under way.
-/

namespace Vmctx.Gate

open Vmctx.System

/-- The protocol-error exits of `forward`. -/
inductive Exit
  | ticketState
  | birth
  | premature
  | unsupported
  | precedes
  deriving DecidableEq, Repr

/-- Where `forward` is. -/
inductive ForwardPc
  | rests
  | sends (rq : CallRequest)
  | waits
  | broken (exit : Exit)
  deriving DecidableEq, Repr

/-- What `forward` has done for a call. -/
inductive ForwardEvent
  | prepared (flags : Nat)
  | sent (op : CallOp)
  | completed (ticket : Nat)
  deriving DecidableEq, Repr

/-- The executor's end of a forwarded call. -/
structure Forward where
  pc : ForwardPc
  ticket : Nat
  prepared : Bool
  childSeen : Bool
  lease : Bool
  done : List ForwardEvent
  deriving DecidableEq, Repr

def CallRequest.follow (op : CallOp) (ticket : Nat) : CallRequest :=
  ⟨op, ticket, false, 0, 0, 0, 0, [0, 0, 0, 0, 0, 0]⟩

namespace Forward

def begin (datalen epoch ns nr : Nat) (args : List Nat) : Forward :=
  ⟨.sends ⟨.prepare, 0, true, datalen, epoch, ns, nr, args⟩, 0, false, false, false, []⟩

def leaves (f : Forward) (exit : Exit) : Forward := { f with pc := .broken exit }

def birthRefused (f : Forward) (rs : CallReply) : Prop :=
  f.childSeen = true ∨ f.prepared = false ∨ (rs.state ≠ .running ∧ rs.state ≠ .complete) ∨
    f.lease = false ∨ rs.childSource = 0

instance (f : Forward) (rs : CallReply) : Decidable (f.birthRefused rs) :=
  inferInstanceAs (Decidable (_ ∨ _ ∨ _ ∨ _ ∨ _))

def published (f : Forward) (rs : CallReply) : Forward :=
  if rs.child then { f with childSeen := true, lease := false } else f

def prepares (f : Forward) (rs : CallReply) : Forward :=
  if f.prepared then f
  else { f with
    prepared := true
    lease := rs.prepareFlags &&& prepareSnapshot != 0
    done := .prepared rs.prepareFlags :: f.done }

def asks (f : Forward) (op : CallOp) : Forward := { f with pc := .sends (.follow op f.ticket) }

def goesOn (f : Forward) (rs : CallReply) : Forward :=
  if rs.data ∨ rs.ended then f.leaves .premature
  else if rs.state = .admitted then
    if rs.prepareFlags ≥ 4 then f.leaves .unsupported else (f.prepares rs).asks .execute
  else if rs.state = .running ∧ f.prepared = false then f.leaves .precedes
  else f.asks .poll

/-- The checks of `forward` on a reply, and what it does next. -/
def receive (f : Forward) (rs : CallReply) : Forward :=
  if (rs.ticket = 0 ∧ rs.ended = false) ∨ (f.ticket ≠ 0 ∧ f.ticket ≠ rs.ticket) ∨
      rs.state = .none then f.leaves .ticketState
  else
    let f := { f with ticket := rs.ticket }
    if rs.child ∧ f.birthRefused rs then f.leaves .birth
    else
      let f := f.published rs
      if rs.state = .complete then
        { f with pc := .rests, done := .completed rs.ticket :: f.done }
      else f.goesOn rs

end Forward

/-- The two ends and what is between them. -/
structure Link where
  conn : Conn
  fwd : Forward
  toSource : Option CallRequest
  toExecutor : Option CallReply

inductive LinkAct
  | begin (datalen epoch ns nr : Nat) (args : List Nat)
  | send
  | deliver (credit setcpu : Option Errno)
  | conn (a : ConnAct)
  | receive

namespace Link

def outgoing (l : Link) : ConnAct → Option CallReply
  | .send true =>
    match l.conn.pc with
    | .sending reply => some reply
    | _ => none
  | _ => none

def next (l : Link) : LinkAct → Option Link
  | .begin datalen epoch ns nr args =>
    match l.fwd.pc with
    | .rests => some { l with fwd := .begin datalen epoch ns nr args }
    | _ => none
  | .send =>
    match l.fwd.pc with
    | .sends rq =>
      some { l with
        fwd := { l.fwd with pc := .waits, done := .sent rq.op :: l.fwd.done }
        toSource := some rq }
    | _ => none
  | .deliver credit setcpu =>
    match l.toSource with
    | some rq =>
      (l.conn.next (.request rq credit setcpu)).map fun c => { l with conn := c, toSource := none }
    | none => none
  | .conn a =>
    match a with
    | .request _ _ _ => none
    | a =>
      (l.conn.next a).map fun c =>
        { l with conn := c, toExecutor := (l.outgoing a).or l.toExecutor }
  | .receive =>
    match l.toExecutor with
    | some rs => some { l with fwd := l.fwd.receive rs, toExecutor := none }
    | none => none

def new : Link := ⟨.new, ⟨.rests, 0, false, false, false, []⟩, none, none⟩

end Link

/-! ## What is assumed -/

/-- The outcomes of the source's native operations while the task lives, its binding stays and
nothing but contention refuses them. -/
def ConnAct.Sound (c : Conn) : ConnAct → Prop
  | .enter authorized => authorized = true
  | .advance fault => fault = false
  | .took snapshot => ∃ binding, snapshot = .ok binding ∧
      (c.call.target.valid = true → binding = c.call.target)
  | .birth outcome => ∀ errno, outcome ≠ .failed errno ∧
      ∀ source binding, outcome = .born source binding →
        source ≠ 0 ∧ (c.call.gate.childSharedMm = true → binding.mm = c.call.target.mm)
  | .state dead => dead = none
  | .completion error => error = none
  | .send ok => ok = true
  | .task .exit | .task .bury => False
  -- Only a clone makes a child.
  | .task (.birth _ _ _) => ∀ nr args, c.world.ctx.task = .dispatching nr args → isCloneNr nr = true
  | _ => True

def LinkAct.Sound (l : Link) : LinkAct → Prop
  | .begin _ _ _ _ _ => l.conn.call.next < ticketMax
  | .deliver credit setcpu => credit = none ∧ setcpu = none
  | .conn a => a.Sound l.conn
  | .send | .receive => True

/-- A `COMMIT` whose last load finds the call complete finds its slot retired. -/
def LinkAct.Prompt (l : Link) : LinkAct → Prop
  | .conn (.advance _) => ∀ reply rq told, l.conn.pc = .inCommit reply →
      l.conn.world.ctx.ctl = some (.settling rq told) → l.conn.world.ctx.sysPending = false
  | _ => True

def LinkReached : Link → Prop :=
  Reach (Guarded (fun l a => LinkAct.Sound l a) (Computed Link.next)) Link.new

/-- The states of those runs in which no `COMMIT` finds an unretired slot. -/
def PromptReached : Link → Prop :=
  Reach (Guarded (fun l a => LinkAct.Sound l a ∧ LinkAct.Prompt l a)
    (Computed Link.next)) Link.new

end Vmctx.Gate
