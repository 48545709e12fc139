import Vmctx.Machine
/-!
# The access journal of an address space

The source kernel keeps, for each address space, the list of access events committed and not yet
acknowledged. `accessCommit` appends an event under the mutation it describes. `ctlAccess` is the
locked section of the `VMCTX_CTL_ACCESS_LOG` control, which reads a batch from the front of the list
or acknowledges a prefix of it, and `publish` the second locked section, which a `READ` reaches once
its reply has been copied out. Event numbers come from a counter that other notes of the address
space also advance, so they increase and have gaps. An append checks the counter far below the range
of a word before it advances it. A note, `mmlogNote`, advances it unchecked: the natural numbers
here stand for runs of fewer than 2 ^ 63 notes.
-/

namespace Vmctx.Journal

/-- The kinds of access events, `VMCTX_ACCESS_UNMAP` to `VMCTX_ACCESS_CONSTRUCT`. -/
inductive AccessKind
  | unmap | discard | protect | deny | allow | construct
  deriving DecidableEq, Repr

/-- `struct vmctx_access_event`. -/
structure AccessEvent where
  seq : Nat
  start : Nat
  end_ : Nat
  kind : AccessKind
  prot : Nat
  deriving DecidableEq, Repr

def protRead : Nat := 1

def protWrite : Nat := 2

def protExec : Nat := 4

def protection (flags : Nat) : Nat :=
  (if flags &&& protRead ≠ 0 then protRead else 0) |||
    (if flags &&& protWrite ≠ 0 then protWrite else 0) |||
    (if flags &&& protExec ≠ 0 then protExec else 0)

/-- `VMCTX_ACCESS_MAX`, the events of one batch, also `VMR_ACCESS_MAX`. -/
def accessMax : Nat := 16

/-- `VMCTX_ACCESS_LIMIT`, the unacknowledged events a journal may hold. -/
def accessLimit : Nat := 65536

def counterLimit : Nat := 2 ^ 63 - 2

/-- The journal of one address space, the fields of `struct vmctx_mm_slot` it uses. -/
structure MmSlot where
  monTgid : Nat
  traceId : Nat
  vacSeqCtr : Nat
  accessLog : List AccessEvent
  accessCount : Nat
  accessAcked : Nat
  accessOffered : Nat
  accessError : Option Errno
  constructions : Nat → Option Nat

/-- The arguments of `vmctx_access_commit` and the outcomes of what it calls. -/
structure Commit where
  start : Nat
  end_ : Nat
  kind : AccessKind
  vmFlags : Nat
  pid : Nat
  mmLive : Bool
  nomem : Bool
  xaErr : Option Errno

namespace MmSlot

def commitEvent (s : MmSlot) (c : Commit) : AccessEvent :=
  ⟨s.vacSeqCtr + 1, c.start, c.end_, c.kind, protection c.vmFlags⟩

/-- `vmctx_access_commit`. -/
def accessCommit (s : MmSlot) (c : Commit) : MmSlot :=
  if c.start ≥ c.end_ ∨ c.mmLive = false then s
  else if s.accessError.isSome then s
  else if s.accessCount = accessLimit ∨ s.vacSeqCtr ≥ counterLimit then
    { s with accessError := some .EOVERFLOW }
  else if c.nomem then { s with accessError := some .ENOMEM }
  else
    let event := s.commitEvent c
    -- The counter has moved on when recording a construction fails.
    match c.kind, c.xaErr with
    | .construct, some errno =>
      { s with vacSeqCtr := s.vacSeqCtr + 1, accessError := some errno }
    | .construct, none =>
      { s with
        vacSeqCtr := s.vacSeqCtr + 1
        constructions := fun pid => if pid = c.pid then some event.seq else s.constructions pid
        accessLog := s.accessLog ++ [event]
        accessCount := s.accessCount + 1 }
    | _, _ =>
      { s with
        vacSeqCtr := s.vacSeqCtr + 1
        accessLog := s.accessLog ++ [event]
        accessCount := s.accessCount + 1 }

/-- `vmctx_mmlog_note` advances the counter, whether it keeps its note or drops it. -/
def mmlogNote (s : MmSlot) : MmSlot := { s with vacSeqCtr := s.vacSeqCtr + 1 }

end MmSlot

def accessAbi : Nat := 1

def accessInfo : Nat := 0

def accessRead : Nat := 1

def accessAck : Nat := 2

def accessLogSize : Nat := 576

/-- `struct vmctx_access_log`, as a caller fills it. -/
structure AccessRequest where
  version : Nat
  size : Nat
  op : Nat
  reserved : Nat
  n : Nat
  mmId : Nat
  cursor : Nat
  deriving DecidableEq, Repr

/-- The fields of `struct vmctx_access_log` a control answers; `n` is the number of events. -/
structure AccessLog where
  op : Nat
  mmId : Nat
  cursor : Nat
  head : Nat
  acked : Nat
  construction : Nat
  error : Nat
  event : List AccessEvent
  deriving DecidableEq, Repr

/-- The answer for a task of the address space, before any event is copied into it. -/
def MmSlot.answer (s : MmSlot) (op pid : Nat) : AccessLog where
  op := op
  mmId := s.traceId
  cursor := s.accessAcked
  head := s.vacSeqCtr
  acked := s.accessAcked
  construction := (s.constructions pid).getD 0
  error := 0
  event := []

def AccessLog.close (out : AccessLog) : AccessLog :=
  { out with cursor := out.event.foldl (fun _ e => e.seq) out.acked }

/-- The locked section of `vmctx_ctl_access` up to its copy-out. The request is absent when it
cannot be copied in. The task is absent when the control names none; `mm` says that its address
space and the slot of it were found. -/
def MmSlot.ctlAccess (s : MmSlot) (task : Option Nat) (current : Nat) (mm : Bool)
    (arg : Option AccessRequest) : MmSlot × Except Errno AccessLog :=
  match arg with
  | none => (s, .error .EFAULT)
  | some rq =>
    if rq.version ≠ accessAbi ∨ rq.size ≠ accessLogSize ∨ rq.op > accessAck ∨ rq.reserved ≠ 0 ∨
        rq.n ≠ 0 then (s, .error .EINVAL)
    else
      match task with
      | none =>
        if rq.op ≠ accessInfo ∨ rq.mmId ≠ 0 ∨ rq.cursor ≠ 0 then (s, .error .EINVAL)
        else (s, .ok ⟨rq.op, 0, 0, 0, 0, 0, 0, []⟩)
      | some pid =>
        if mm = false then (s, .error .ESRCH)
        else if s.monTgid ≠ current then (s, .error .EPERM)
        else if (rq.mmId ≠ 0 ∧ rq.mmId ≠ s.traceId) ∨ (rq.op = accessAck ∧ rq.mmId = 0) then
          (s, .error .ESTALE)
        else
          match s.accessError with
          | some errno => (s, .error errno)
          | none =>
            if rq.op = accessAck then
              if rq.cursor < s.accessAcked ∨ rq.cursor > s.accessOffered then (s, .error .ERANGE)
              else
                let log := s.accessLog.dropWhile fun e => e.seq ≤ rq.cursor
                ({ s with
                    accessLog := log
                    accessCount := s.accessCount - (s.accessLog.length - log.length)
                    accessAcked := rq.cursor },
                  .ok { s.answer rq.op pid with acked := rq.cursor }.close)
            else if rq.op = accessRead then
              if rq.cursor ≠ s.accessAcked then (s, .error .ESTALE)
              else
                (s, .ok { s.answer rq.op pid with event := s.accessLog.take accessMax }.close)
            else (s, .ok (s.answer rq.op pid).close)

def MmSlot.publish (s : MmSlot) (out : AccessLog) : MmSlot :=
  if out.op = accessRead then { s with accessOffered := max s.accessOffered out.cursor } else s

end Vmctx.Journal
