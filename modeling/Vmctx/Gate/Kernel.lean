import Vmctx.Machine
/-!
# The native syscall gate

A service context performs the calls of a program that runs elsewhere. Its monitor drives each call
through the gate: `BEGIN` enters it, the task does its native entry work and stops at `ADMITTED`,
`COMMIT` lets it dispatch, and the results stand once the task has stored `COMPLETE` and retired
the slot. The controls hold the context's control lock, which the task never takes, so the steps of
a control and those of the task interleave between any two accesses of the shared fields.
-/

namespace Vmctx.Gate

/-- The states of a ticket, `VMCTX_GATE_ENTERING` to `VMCTX_GATE_COMPLETE`, and that of a context
without one. -/
inductive GateState
  | none | entering | admitted | running | complete
  deriving DecidableEq, Repr

def GateState.rank : GateState → Nat
  | .none => 0
  | .entering => 1
  | .admitted => 2
  | .running => 3
  | .complete => 4

/-- `struct vmctx_syscall`. -/
structure SysCall where
  nr : Int
  args : List Nat
  ret : Int
  changed : Nat
  regs : List Nat
  deriving DecidableEq, Repr

def SysCall.zero : SysCall := ⟨0, [], 0, 0, []⟩

/-- The number and arguments alone, as an answer carries them before the results are final. -/
def SysCall.entry (c : SysCall) : SysCall := { SysCall.zero with nr := c.nr, args := c.args }

/-- The gate of a context, `struct vmctx_syscall_gate` as the kernel keeps it. -/
structure SyscallGate where
  state : GateState
  ticket : Nat
  childHostPid : Nat
  childPid : Nat
  childSharedMm : Bool
  call : SysCall
  dispatchRet : Int
  deriving DecidableEq, Repr

def SyscallGate.begin (ticket : Nat) : SyscallGate := ⟨.entering, ticket, 0, 0, false, .zero, 0⟩

def gateBegin : Nat := 1

def gateQuery : Nat := 2

def gateCommit : Nat := 3

def gateCancel : Nat := 4

def gateAbi : Nat := 2

def ticketMax : Nat := 2 ^ 64 - 1

/-- `struct vmctx_syscall_gate`, as a caller fills it. -/
structure GateRequest where
  version : Nat
  sized : Bool
  op : Nat
  reserved : Nat
  ticket : Nat
  deriving DecidableEq, Repr

/-- `struct vmctx_syscall_gate`, as it is answered. -/
structure GateReply where
  ticket : Nat
  state : GateState
  call : SysCall
  dispatchRet : Int
  childHostPid : Nat
  childPid : Nat
  childSharedMm : Bool
  deriving DecidableEq, Repr

/-- What a control returns: an error, or nothing but success (`CANCEL`), or an answer. -/
abbrev Answer := Except Errno (Option GateReply)

/-- Where a control of the gate is. -/
inductive CtlPc
  | loaded (rq : GateRequest) (state : GateState)
  | answering (rq : GateRequest)
  | settling (rq : GateRequest) (reply : GateReply)
  | childing (rq : GateRequest) (reply : GateReply)
  | copying (rq : GateRequest) (reply : GateReply)
  | other
  deriving DecidableEq, Repr

/-- Where the task is. -/
inductive TaskPc
  | parked
  | entered
  | waiting (nr : Int) (args : List Nat)
  | dispatching (nr : Int) (args : List Nat)
  | skipping
  | dispatched
  | completed
  | retiring
  | assisting
  | assisted
  | ended
  deriving DecidableEq, Repr

/-- A context: the fields of `struct vmctx_task` the gate uses, its task and its control. -/
structure Context where
  gate : SyscallGate
  sysPending : Bool
  sysException : Nat
  assistNr : Int
  sysDone : Bool
  serviceReady : Bool
  dead : Bool
  service : Bool
  task : TaskPc
  ctl : Option CtlPc
  deriving DecidableEq, Repr

namespace Context

/-- A control takes the lock, checks its request and loads the state. It fails with `EBUSY` when the
lock is held. The request is absent when it cannot be copied in. -/
def enter (c : Context) (arg : Option GateRequest) (authorized : Bool) :
    Context × Option Answer :=
  if c.ctl.isSome then (c, some (.error .EBUSY))
  else
    match arg with
    | none => (c, some (.error .EFAULT))
    | some rq =>
      if rq.version ≠ gateAbi ∨ rq.sized = false ∨ rq.reserved ≠ 0 ∨ rq.ticket = 0 ∨
          rq.op < gateBegin ∨ rq.op > gateCancel ∨ c.service = false then
        (c, some (.error .EINVAL))
      else if c.dead ∧ rq.op ≠ gateQuery then (c, some (.error .ESRCH))
      else if authorized = false then
        (c, some (.error (if c.dead then .ESRCH else .EPERM)))
      else ({ c with ctl := some (.loaded rq c.gate.state) }, none)

def begin (c : Context) (rq : GateRequest) : Except Errno Context :=
  if rq.ticket < c.gate.ticket then .error .ESTALE
  else if c.sysPending ∨ c.assistNr ≠ 0 then .error .EBUSY
  else if c.gate.ticket = ticketMax then .error .EOVERFLOW
  else if rq.ticket ≠ c.gate.ticket + 1 then .error .EINVAL
  else if c.serviceReady = false then .error .EAGAIN
  else
    .ok { c with
      gate := .begin rq.ticket
      sysException := 3
      sysDone := false
      sysPending := true }

def act (c : Context) (rq : GateRequest) (state : GateState) : Except Errno Context :=
  if rq.op = gateBegin ∧ rq.ticket ≠ c.gate.ticket then c.begin rq
  else if rq.ticket ≠ c.gate.ticket then .error .ESTALE
  else if rq.op = gateCommit then
    if state = .entering then .error .EAGAIN
    else if state = .admitted then .ok { c with gate := { c.gate with state := .running } }
    else .ok c
  else .ok c

def reply (c : Context) (rq : GateRequest) : GateReply where
  ticket := rq.ticket
  state := c.gate.state
  call := if c.gate.state.rank ≥ GateState.admitted.rank then c.gate.call.entry else .zero
  dispatchRet := 0
  childHostPid := 0
  childPid := 0
  childSharedMm := false

/-- The control that holds the lock takes one step. A step that returns gives the lock back. `fault`
is the outcome of the copy-out. -/
def advance (c : Context) (fault : Bool) : Option (Context × Option Answer) :=
  let returns (c : Context) (answer : Answer) : Option (Context × Option Answer) :=
    some ({ c with ctl := none }, some answer)
  let goes (c : Context) (pc : CtlPc) : Option (Context × Option Answer) :=
    some ({ c with ctl := some pc }, none)
  match c.ctl with
  | some (.loaded rq state) =>
    match c.act rq state with
    | .error errno => returns c (.error errno)
    | .ok c => if rq.op = gateCancel then returns c (.ok none) else goes c (.answering rq)
  | some (.answering rq) =>
    if c.gate.state = .complete then goes c (.settling rq (c.reply rq))
    else goes c (.childing rq (c.reply rq))
  | some (.settling rq reply) =>
    -- `COMPLETE` is told only once the slot is retired.
    if c.sysPending ∧ c.dead = false then returns c (.error .EAGAIN)
    else
      goes c (.childing rq { reply with call := c.gate.call, dispatchRet := c.gate.dispatchRet })
  | some (.childing rq reply) =>
    if c.gate.childHostPid = 0 then goes c (.copying rq reply)
    else
      goes c (.copying rq { reply with
        childHostPid := c.gate.childHostPid
        childPid := c.gate.childPid
        childSharedMm := c.gate.childSharedMm })
  | some (.copying _ reply) =>
    returns c (if fault then .error .EFAULT else .ok (some reply))
  | _ => none

/-- Another control takes the lock; an assisted call also occupies the slot. -/
def otherEnter (c : Context) (assist : Option Nat) : Option Context :=
  if c.ctl.isSome ∨ c.dead then none
  else
    match assist with
    | none => some { c with ctl := some .other }
    | some exception =>
      if c.sysPending ∨ c.assistNr ≠ 0 ∨ exception ≥ 3 then none
      else
        some { c with
          ctl := some .other
          sysException := exception
          sysDone := false
          sysPending := true }

def otherReturn (c : Context) : Option Context :=
  if c.ctl = some .other then some { c with ctl := none } else none

end Context

inductive TaskAct
  | ready
  | start (nr : Int)
  | admits (nr : Int) (args : List Nat)
  | dispatch
  | birth (hostPid pid : Nat) (shared : Bool)
  | returned (ret : Int)
  | complete (ret : Int) (changed : Nat) (regs : List Nat)
  | retire
  | assist
  | exit
  | bury
  deriving DecidableEq, Repr

namespace Context

def admits (c : Context) (nr : Int) (args : List Nat) : Option Context :=
  if c.task = .entered then
    some { c with
      assistNr := nr
      gate := { c.gate with
        call := { c.gate.call with nr := nr, args := args }
        state := .admitted }
      task := .waiting nr args }
  else none

def dispatch (c : Context) : Option Context :=
  match c.task with
  | .waiting nr args =>
    if c.gate.state = .admitted then none
    else if nr = -1 then some { c with task := .skipping }
    else some { c with task := .dispatching nr args }
  | _ => none

/-- `vmctx_gate_child_created`. -/
def birth (c : Context) (hostPid pid : Nat) (shared : Bool) : Option Context :=
  match c.task with
  | .dispatching _ _ =>
    if hostPid = 0 ∨ c.gate.childHostPid ≠ 0 then none
    else if c.gate.state = .running then
      some { c with
        gate := { c.gate with childHostPid := hostPid, childPid := pid, childSharedMm := shared } }
    else some c
  | _ => none

def returned (c : Context) (ret : Int) : Option Context :=
  match c.task with
  | .dispatching _ _ | .skipping =>
    some { c with gate := { c.gate with dispatchRet := ret }, task := .dispatched }
  | _ => none

/-- The end of `vmctx_do_monitor_syscall`. -/
def complete (c : Context) (ret : Int) (changed : Nat) (regs : List Nat) : Option Context :=
  if c.task = .dispatched then
    some { c with
      gate := { c.gate with
        call := { c.gate.call with ret := ret, changed := changed, regs := regs }
        state := .complete }
      task := .completed }
  else none

def start (c : Context) (nr : Int) : Option Context :=
  if c.task = .parked ∧ c.sysPending then
    some { c with assistNr := nr, task := if c.sysException = 3 then .entered else .assisting }
  else none

def retire (c : Context) : Option Context :=
  match c.task with
  | .completed => some { c with assistNr := 0, task := .retiring }
  | .assisted => some { c with assistNr := 0, task := .retiring }
  | .retiring => some { c with sysDone := true, sysPending := false, task := .parked }
  | _ => none

/-- A step of the task in `vmctx_run_gated_syscall`. -/
def taskStep (c : Context) : TaskAct → Option Context
  | .ready => if c.task = .parked then some { c with serviceReady := true } else none
  | .start nr => c.start nr
  | .admits nr args => c.admits nr args
  | .dispatch => c.dispatch
  | .birth hostPid pid shared => c.birth hostPid pid shared
  | .returned ret => c.returned ret
  | .complete ret changed regs => c.complete ret changed regs
  | .retire => c.retire
  | .assist => if c.task = .assisting then some { c with task := .assisted } else none
  | .exit => some { c with task := .ended }
  | .bury => if c.task = .ended then some { c with dead := true } else none

def new (service : Bool) : Context :=
  ⟨⟨.none, 0, 0, 0, false, .zero, 0⟩, false, 0, 0, false, false, false, service, .parked, none⟩

end Context

end Vmctx.Gate
