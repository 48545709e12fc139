import Vmctx.System.Run
/-!
# Reporting an event to the monitor

A context that redirects an event fills it in, publishes it and sleeps in `vmctx_report` until its
monitor replies. A thread of the monitor takes the event with `WAIT` and answers with `RESUME`. Only
the publication, the withdrawal, the abandonment and the taking of an event are sections of
`ev_lock`; the loop around the sleep reads the flags without it, and `RESUME` stores the reply,
clears the pending flag and sets the reply flag one after the other. A step here is one such section
or one such access, and the steps of the context, of any number of monitor threads and of the world
around them interleave freely.

The number of an event, the number of a `RESUME`, what a thread has yet to answer, whether the last
report gave up and the history are kept for the proofs; no step reads them.
-/

namespace Vmctx.Events

/-- The type of an event, `VMCTX_EV_*`. -/
inductive EvType
  | syscall
  | fault
  | runtime
  deriving DecidableEq

/-- An event, `struct vmctx_event`, known by the number of its publication. -/
structure Ev where
  type : EvType
  number : Nat
  deriving DecidableEq

/-- The internal action by which an instruction is run again, `VMCTX_ACT_RETRY`. -/
def actRetry : UInt32 := 0xffff

/-- A reply, `struct vmctx_reply`, known by the number of the `RESUME` that gave it. -/
structure Reply where
  action : UInt32
  call : Nat
  deriving DecidableEq

/-- How `vmctx_report` sleeps. -/
inductive Sleep
  | interruptible
  | killable
  | uninterruptible
  deriving DecidableEq

inductive Wake
  | event
  | signal
  | elapsed
  deriving DecidableEq

/-- Where the task is in its report. -/
inductive Pc
  | running
  | entered
  | publishing
  | choosing
  | sleeping (kind : Sleep)
  | woken (left : Bool)
  | deciding (left : Bool)
  | abandoning
  | withdrawing
  | polling
  | timing
  | leaving (withdrew : Bool)
  | losing
  | dropping
  | consuming
  | clearing (reply : Reply)
  | exiting
  | gone
  deriving DecidableEq

/-- Where a thread of the monitor is. -/
inductive Call
  | idle
  | waiting
  | claiming
  | copying (ev : Ev)
  | checking (reply : Reply)
  | writing (reply : Reply)
  | unpending (reply : Reply)
  | setting (reply : Reply)
  deriving DecidableEq

structure Thread where
  call : Call
  /-- The event its last successful `WAIT` returned, until its `RESUME` is over. -/
  holds : Option Nat
  deriving DecidableEq

inductive Event
  | published (number : Nat)
  | returned (number : Nat)
  | withdrawn (number : Nat)
  | retried (number : Nat)
  | issued (call : Nat)
  | consumed (number call : Nat)
  deriving DecidableEq

/-- A context that reports events. -/
structure Desk where
  service : Bool
  monitor : Bool
  alive : Bool
  monitorLost : Bool
  dead : Bool
  ev : Ev
  evPending : Bool
  evTaken : Bool
  evAbandoned : Bool
  replyPending : Bool
  reply : Reply
  fatal : Bool
  cpuCtl : Bool
  pc : Pc
  threads : List Thread
  count : Nat
  calls : Nat
  gaveUp : Bool
  log : List Event

namespace Desk

def start (service : Bool) (threads : Nat) : Desk where
  service := service
  monitor := true
  alive := true
  monitorLost := false
  dead := false
  ev := ⟨.syscall, 0⟩
  evPending := false
  evTaken := false
  evAbandoned := false
  replyPending := false
  reply := ⟨0, 0⟩
  fatal := false
  cpuCtl := false
  pc := .running
  threads := List.replicate threads ⟨.idle, none⟩
  count := 0
  calls := 0
  gaveUp := false
  log := []

def goto (s : Desk) (pc : Pc) : Desk := { s with pc := pc }

def note (s : Desk) (event : Event) : Desk := { s with log := event :: s.log }

def setThread (s : Desk) (i : Nat) (t : Thread) : Desk := { s with threads := s.threads.set i t }

def answered (s : Desk) : Bool := s.replyPending || !s.monitor

def authorized (s : Desk) : Bool := !s.dead && s.monitor

/-! The context. -/

/-- Fill in the event of a redirected trap. Without a monitor there is no redirection. -/
def fill (s : Desk) (type : EvType) : Option Desk :=
  if s.monitor then some ({ s with ev := ⟨type, s.count + 1⟩ }.goto .entered) else none

def dropDead (s : Desk) : Desk := { s with monitor := s.monitor && s.alive }.goto .publishing

def publish (s : Desk) : Desk :=
  ({ s with
    evTaken := false
    replyPending := false
    evPending := true
    count := s.count + 1
    gaveUp := false }.note (.published (s.count + 1))).goto .choosing

/-- Choose how to sleep: an event that was taken is not given up for a signal. -/
def choose (s : Desk) : Desk :=
  s.goto (.sleeping (
    if s.evTaken = true ∧ (s.ev.type = .fault ∨ s.ev.type = .runtime) then .killable
    else if s.evTaken then .uninterruptible
    else .interruptible))

def wakes (s : Desk) (kind : Sleep) : Wake → Bool
  | .event => s.answered
  | .signal => match kind with
    | .interruptible => true
    | .killable => s.fatal
    | .uninterruptible => false
  | .elapsed => !s.answered

def wake (s : Desk) (kind : Sleep) (by_ : Wake) : Option Desk :=
  if s.wakes kind by_ then some (s.goto (.woken (by_ != .elapsed))) else none

def look (s : Desk) (left : Bool) : Desk :=
  if s.answered then s.goto (.leaving false) else s.goto (.deciding left)

/-- A fatal signal ends the wait for a fault or a checkpoint; another signal takes back an event
that was not taken. -/
def decide_ (s : Desk) (left : Bool) : Desk :=
  if (s.ev.type = .fault ∨ s.ev.type = .runtime) ∧ s.fatal = true then s.goto .abandoning
  else if left = true ∧ s.evTaken = false then s.goto .withdrawing
  else s.goto .polling

def abandon (s : Desk) : Desk :=
  { s with evAbandoned := s.evTaken, evPending := false, gaveUp := true }.goto .running

def withdraw (s : Desk) : Desk :=
  if s.evTaken then s.goto .choosing
  else ({ s with evPending := false }.note (.withdrawn s.count)).goto (.leaving true)

def poll (s : Desk) : Desk :=
  if s.monitor && s.alive then s.goto .timing else s.goto (.leaving false)

def time (s : Desk) (expired : Bool) : Desk :=
  if s.ev.type = .fault ∧ expired = true then s.goto .abandoning else s.goto .choosing

/-- Out of the loop: consume the reply, run the instruction again after a withdrawal, or go on
without a monitor. -/
def leave (s : Desk) (withdrew : Bool) : Desk :=
  if s.replyPending then s.goto .consuming
  else if withdrew then (s.note (.retried s.count)).goto .running
  else s.goto .losing

def lose (s : Desk) : Desk := { s with evPending := false }.goto .dropping

def drop (s : Desk) : Desk :=
  { s with monitorLost := true, monitor := false, gaveUp := true }.goto .running

def consume (s : Desk) : Desk := s.goto (.clearing s.reply)

def finish (s : Desk) (reply : Reply) : Desk :=
  let s := ({ s with replyPending := false }.note (.consumed s.count reply.call)).goto .running
  if reply.action = actRetry then s.note (.retried s.count) else s

def exit (s : Desk) : Desk := { s with dead := true, monitor := false }.goto .exiting

def unpublish (s : Desk) : Desk := { s with evPending := false }.goto .gone

/-! The threads of the monitor. -/

def waitCall (s : Desk) (i : Nat) (t : Thread) : Option Desk :=
  if s.authorized then some (s.setThread i { t with call := .waiting }) else none

def waitWake (s : Desk) (i : Nat) (t : Thread) : Option Desk :=
  if s.dead then some (s.setThread i { t with call := .idle })
  else if s.evPending then some (s.setThread i { t with call := .claiming })
  else none

def claim (s : Desk) (i : Nat) (t : Thread) : Desk :=
  if s.evPending then { s with evTaken := true }.setThread i { t with call := .copying s.ev }
  else s.setThread i { t with call := .waiting }

def copyOut (s : Desk) (i : Nat) (t : Thread) (ev : Ev) (copied : Bool) : Desk :=
  if copied then
    (s.note (.returned ev.number)).setThread i { call := .idle, holds := some ev.number }
  else { s with evTaken := false }.setThread i { t with call := .idle }

/-- Enter `RESUME`. A context that is not a service has one at a time. -/
def resumeCall (s : Desk) (i : Nat) (t : Thread) (action : UInt32) : Option Desk :=
  if s.authorized = true ∧ (s.service = true ∨ s.cpuCtl = false) then
    some (({ s with cpuCtl := !s.service, calls := s.calls + 1 }.note
      (.issued (s.calls + 1))).setThread i { t with call := .checking ⟨action, s.calls + 1⟩ })
  else none

def resumeCheck (s : Desk) (i : Nat) (t : Thread) (reply : Reply) : Desk :=
  if s.evAbandoned then
    { s with evAbandoned := false, cpuCtl := false }.setThread i { call := .idle, holds := none }
  else s.setThread i { t with call := .writing reply }

def resumeWrite (s : Desk) (i : Nat) (t : Thread) (reply : Reply) : Desk :=
  { s with reply := reply }.setThread i { t with call := .unpending reply }

def resumeClear (s : Desk) (i : Nat) (t : Thread) (reply : Reply) : Desk :=
  { s with evPending := false }.setThread i { t with call := .setting reply }

def resumeSet (s : Desk) (i : Nat) : Desk :=
  { s with replyPending := true, cpuCtl := false }.setThread i { call := .idle, holds := none }

inductive Own
  | fill (type : EvType)
  | dropDead
  | publish
  | choose
  | wake (by_ : Wake)
  | look
  | decide_
  | abandon
  | withdraw
  | poll
  | time (expired : Bool)
  | leave
  | lose
  | drop
  | consume
  | finish
  | exit
  | unpublish

inductive Act
  | waitCall
  | waitWake
  | waitSignal
  | claim
  | copyOut (copied : Bool)
  | resumeCall (action : UInt32)
  | resumeCheck
  | resumeWrite
  | resumeClear
  | resumeSet

inductive Label
  | own (step : Own)
  | thread (i : Nat) (act : Act)
  | attach
  | detach
  | die
  | kill

/-- A step of the context in `vmctx_report`. -/
def ownNext (s : Desk) (step : Own) : Option Desk :=
  match s.pc, step with
  | .running, .fill type => s.fill type
  | .entered, .dropDead => some s.dropDead
  | .publishing, .publish => some s.publish
  | .choosing, .choose => some s.choose
  | .sleeping kind, .wake by_ => s.wake kind by_
  | .woken left, .look => some (s.look left)
  | .deciding left, .decide_ => some (s.decide_ left)
  | .abandoning, .abandon => some s.abandon
  | .withdrawing, .withdraw => some s.withdraw
  | .polling, .poll => some s.poll
  | .timing, .time expired => some (s.time expired)
  | .leaving withdrew, .leave => some (s.leave withdrew)
  | .losing, .lose => some s.lose
  | .dropping, .drop => some s.drop
  | .consuming, .consume => some s.consume
  | .clearing reply, .finish => some (s.finish reply)
  | .running, .exit => some s.exit
  | .exiting, .unpublish => some s.unpublish
  | _, _ => none

/-- A step of a thread in `VMCTX_CTL_WAIT` or `VMCTX_CTL_RESUME`. -/
def actNext (s : Desk) (i : Nat) (t : Thread) (act : Act) : Option Desk :=
  match t.call, act with
  | .idle, .waitCall => s.waitCall i t
  | .waiting, .waitWake => s.waitWake i t
  | .waiting, .waitSignal => some (s.setThread i { t with call := .idle })
  | .claiming, .claim => some (s.claim i t)
  | .copying ev, .copyOut copied => some (s.copyOut i t ev copied)
  | .idle, .resumeCall action => s.resumeCall i t action
  | .checking reply, .resumeCheck => some (s.resumeCheck i t reply)
  | .writing reply, .resumeWrite => some (s.resumeWrite i t reply)
  | .unpending reply, .resumeClear => some (s.resumeClear i t reply)
  | .setting _, .resumeSet => some (s.resumeSet i)
  | _, _ => none

def next (s : Desk) : Label → Option Desk
  | .own step => s.ownNext step
  | .thread i act => s.threads[i]?.bind fun t => s.actNext i t act
  | .attach =>
    if !s.dead && !s.monitor then some { s with monitor := true, alive := true } else none
  | .detach => some { s with monitor := false }
  | .die => some { s with alive := false }
  | .kill => some { s with fatal := true }

abbrev Step : Desk → Label → Desk → Prop := System.Computed next

end Desk

end Vmctx.Events
