import Vmctx.Gate.History
import Vmctx.Identity
/-!
# The source's side of a call

One connection drives one native call at a time. `source_admission_step` is called for every
`PREPARE`, `EXECUTE` and `CALL_POLL` request. It calls the gate's controls, and the outcomes of the
other native operations it uses are arguments here. The function is cut where it enters the kernel
and where it uses such an outcome; `serve` takes up what it returns.
-/

namespace Vmctx.Gate

inductive CallOp
  | prepare | execute | poll
  deriving DecidableEq, Repr

/-- `struct vmr_req` of a call. -/
structure CallRequest where
  op : CallOp
  ticket : Nat
  decodes : Bool
  datalen : Nat
  epoch : Nat
  ns : Nat
  nr : Nat
  args : List Nat
  deriving DecidableEq, Repr

/-- `VMR_CALL_ENTERING` to `VMR_CALL_COMPLETE`, and a reply without a state. -/
inductive CallState
  | none | entering | admitted | running | complete
  deriving DecidableEq, Repr

/-- `struct vmr_rsp` of a call. -/
structure CallReply where
  ticket : Nat
  state : CallState
  /-- The local preparation asked for, `VMR_PREPARE_SETTLE` and `VMR_PREPARE_SNAPSHOT`. -/
  prepareFlags : Nat
  child : Bool
  childSource : Nat
  childBinding : MmBinding
  childSharedMm : Bool
  ended : Bool
  endedStatus : Nat
  data : Bool
  deriving DecidableEq, Repr

def CallReply.zero : CallReply := ⟨0, .none, 0, false, 0, .zero, false, false, 0, false⟩

abbrev Call := Int × List Nat

/-- `struct source_admission`. -/
structure Admission where
  gate : GateReply
  admitted : Call
  target : MmBinding
  next : Nat
  active : Bool
  begun : Bool
  prepared : Bool
  committed : Bool
  birthSeen : Bool
  deriving DecidableEq, Repr

def GateReply.entering (ticket : Nat) : GateReply := ⟨ticket, .entering, .zero, 0, 0, 0, false⟩

def Admission.fresh (next : Nat) : Admission where
  gate := .entering next
  admitted := (0, [])
  target := .zero
  next := next
  active := true
  begun := false
  prepared := false
  committed := false
  birthSeen := false

def Admission.new : Admission :=
  { Admission.fresh 0 with gate := ⟨0, .none, .zero, 0, 0, 0, false⟩, active := false }

def isCloneNr (nr : Int) : Bool := nr == 56 || nr == 57 || nr == 58 || nr == 435

def prepareSettle : Nat := 1

def prepareSnapshot : Nat := 2

def prepareFlagsOf (nr : Int) : Nat := if isCloneNr nr then prepareSettle ||| prepareSnapshot else 0

namespace Admission

def accepts (call : Admission) (rq : CallRequest) : Except Errno Unit :=
  if call.active ∨ rq.ticket ≠ 0 ∨ rq.decodes = false then .error .EPROTO
  else if call.next = ticketMax then .error .EOVERFLOW
  else .ok ()

def continues (call : Admission) (rq : CallRequest) : Except Errno Unit :=
  if call.active = false ∨ rq.ticket ≠ call.gate.ticket ∨ rq.datalen ≠ 0 ∨ rq.epoch ≠ 0 ∨
      rq.ns ≠ 0 ∨ rq.nr ≠ 0 ∨ rq.args.any (· != 0) then
    .error .EPROTO
  else .ok ()

def firstOp (call : Admission) : Nat := if call.begun then gateQuery else gateBegin

def request (call : Admission) (op : Nat) : GateRequest := ⟨gateAbi, true, op, 0, call.gate.ticket⟩

def waitState (call : Admission) : CallState :=
  if call.committed then .running else if call.prepared then .admitted else .entering

end Admission

def transient (errno : Errno) : Bool := errno = .EAGAIN ∨ errno = .EBUSY

/-- What a part of the step leaves: it goes on, returns a reply, or fails. -/
inductive StepNext
  | commit
  | birth
  | state
  | reply
  | complete
  | fail (errno : Errno)
  deriving DecidableEq, Repr

inductive Effect
  | observed (target : MmBinding) (call : Call)
  | memory (call : Call)
  | childEnded
  deriving DecidableEq, Repr

/-- A part of a step: the admission and the reply it leaves, its effects oldest first, and where it
goes. -/
structure Part where
  call : Admission
  reply : CallReply
  effects : List Effect
  next : StepNext

namespace Admission

def seen (call : Admission) : Call := (call.gate.call.nr, call.gate.call.args)

def heard (call : Admission) (gate : Option GateReply) : Admission :=
  { call with gate := gate.getD call.gate, begun := true }

/-- The first observation of `ADMITTED` fixes the binding and the call. -/
def fix (call : Admission) (snapshot : MmBinding) : Admission :=
  if call.target.valid then call else { call with target := snapshot, admitted := call.seen }

/-- The part that follows an observation of `ADMITTED`; `snapshot` is the binding observed. -/
def admittedPart (call : Admission) (op : CallOp) (reply : CallReply) (snapshot : MmBinding) :
    Part :=
  if call.target.valid ∧ (call.target ≠ snapshot ∨ call.admitted ≠ call.seen) then
    ⟨call, reply, [.observed snapshot call.seen], .fail .ESTALE⟩
  else
    let fixed := call.fix snapshot
    let reply := { reply with prepareFlags := prepareFlagsOf fixed.admitted.1 }
    if op = .execute ∧ call.committed = false then
      ⟨{ fixed with prepared := true }, reply,
        .observed snapshot call.seen :: if call.prepared then [] else [.memory fixed.admitted],
        .commit⟩
    else ⟨fixed, reply, [.observed snapshot call.seen], .birth⟩

def afterFirst (call : Admission) (op : CallOp) (reply : CallReply) (answer : Answer)
    (snapshot : Except Errno MmBinding) : Part :=
  match answer with
  | .error errno =>
    if transient errno then ⟨call, { reply with state := call.waitState }, [], .reply⟩
    else ⟨call, reply, [], .fail errno⟩
  | .ok gate =>
    let call := call.heard gate
    if call.gate.state = .admitted then
      match snapshot with
      | .error errno => ⟨call, reply, [], .fail errno⟩
      | .ok snapshot => call.admittedPart op reply snapshot
    else if op = .execute ∧ call.committed = false then ⟨call, reply, [], .fail .EPROTO⟩
    else ⟨call, reply, [], .birth⟩

def afterCommit (call : Admission) (reply : CallReply) (answer : Answer) : Part :=
  match answer with
  | .error errno =>
    if transient errno then ⟨call, reply, [], .birth⟩ else ⟨call, reply, [], .fail errno⟩
  | .ok gate => ⟨{ call with gate := gate.getD call.gate, committed := true }, reply, [], .birth⟩

/-- The native outcomes of `source_admission_birth`. -/
inductive Birth
  | busy
  | failed (errno : Errno)
  | ended
  | born (source : Nat) (binding : MmBinding)
  deriving DecidableEq, Repr

/-- `source_admission_birth`. -/
def birth (call : Admission) (reply : CallReply) (outcome : Birth) : Part :=
  if call.birthSeen ∨ call.gate.childHostPid = 0 then ⟨call, reply, [], .state⟩
  else
    match outcome with
    | .busy => ⟨call, { reply with state := .running }, [], .reply⟩
    | .failed errno => ⟨call, reply, [], .fail errno⟩
    | .ended => ⟨{ call with birthSeen := true }, reply, [.childEnded], .state⟩
    | .born source binding =>
      if call.target.valid = false then
        ⟨call, { reply with childBinding := binding }, [], .fail .EPROTO⟩
      else if call.gate.childSharedMm ∧ binding.mm ≠ call.target.mm then
        ⟨call, { reply with childBinding := binding }, [], .fail .ESTALE⟩
      else
        let binding :=
          if call.gate.childSharedMm then binding else { binding with parentMm := call.target.mm }
        ⟨{ call with birthSeen := true },
          { reply with
            child := true
            childSource := source
            childBinding := binding
            childSharedMm := call.gate.childSharedMm },
          [], .state⟩

def finish (call : Admission) (reply : CallReply) (dead : Option Nat) : Part :=
  match dead with
  | some status =>
    ⟨{ call with active := false },
      { reply with ended := true, endedStatus := status, state := .complete }, [], .reply⟩
  | none =>
    match call.gate.state with
    | .entering => ⟨call, { reply with state := .entering }, [], .reply⟩
    | .admitted => ⟨call, { reply with state := .admitted }, [], .reply⟩
    | .running => ⟨call, { reply with state := .running }, [], .reply⟩
    | .complete =>
      if call.committed = false then ⟨call, reply, [], .fail .EPROTO⟩
      else ⟨{ call with active := false }, { reply with state := .complete }, [], .complete⟩
    | .none => ⟨call, reply, [], .fail .EPROTO⟩

end Admission

def endedErrno (errno : Errno) : Bool := errno = .ESRCH ∨ errno = .EINVAL ∨ errno = .ETIMEDOUT

end Vmctx.Gate
