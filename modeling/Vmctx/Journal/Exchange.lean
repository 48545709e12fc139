import Vmctx.Journal.Executor
import Vmctx.System.Run
/-!
# The exchange of an access journal

One address space: its journal in the source kernel, the controls under way on it and the executor's
cursor. Commits and notes of the address space, the sections of any number of controls and the
stages of `access_sync` interleave freely. A control may come from anyone and may outlive the call
it was made for. A call of the executor brings back the service's reply to a control that carried
its request, or something else: nothing, a part of it or bytes of another shape. The history
variables record what was committed, copied out, applied and returned.
-/

namespace Vmctx.Journal

inductive CallPc
  | copying (out : AccessLog)
  | returned (result : Except Errno AccessLog)

structure Call where
  arg : Option AccessRequest
  pc : CallPc

/-- Where the executor's `access_sync` is. -/
inductive SyncPc
  | idle
  | reading
  | applying (batch : WireBatch)
  | acking (batch : WireBatch)

/-- The journal, the controls on it, the executor and the history. -/
structure World where
  slot : MmSlot
  calls : Nat → Option Call
  callCount : Nat
  as : Nat
  cursor : Option AccessCursor
  sync : SyncPc
  committed : List AccessEvent
  copied : List AccessEvent
  applied : List WireEvent
  returns : List (Option Errno)

inductive Delivery
  | answered (call : Nat)
  | broken (reply : WireReply)

inductive Act
  | commit (c : Commit)
  | note
  | control (task : Option Nat) (current : Nat) (mm : Bool) (arg : Option AccessRequest)
  | copyOut (call : Nat) (fault : Bool)
  | syncStart (error : Option Errno)
  | readReply (delivery : Delivery)
  | apply (applier : Applier)
  | ackReply (delivery : Delivery)

namespace World

def request (w : World) (op cursor : Nat) : AccessRequest := serveRequest op w.as cursor

/-- The reply the executor receives: that of a control which carried its request, or the bytes that
came instead. -/
def receive (w : World) (rq : AccessRequest) : Delivery → Option WireReply
  | .broken reply => some reply
  | .answered call =>
    match w.calls call with
    | some ⟨some arg, .returned result⟩ =>
      if arg = rq then some (serveAccess w.as result) else none
    | _ => none

/-- `access_sync` fails: the cursor keeps the error and the call returns it. -/
def fail (w : World) (c : AccessCursor) : World :=
  { w with
    cursor := some { c with failed := some .EPROTO }
    sync := .idle
    returns := w.returns ++ [some .EPROTO] }

def succeed (w : World) : World := { w with sync := .idle, returns := w.returns ++ [none] }

def syncStart (w : World) (error : Option Errno) : Option World :=
  match w.sync with
  | .idle =>
    if w.as = 0 then some { w with returns := w.returns ++ [some .EINVAL] }
    else
      match w.cursor, error with
      | none, some errno => some { w with returns := w.returns ++ [some errno] }
      | none, none => some { w with cursor := some ⟨w.as, 0, none⟩, sync := .reading }
      | some c, _ =>
        match c.failed with
        | some errno => some { w with returns := w.returns ++ [some errno] }
        | none => some { w with sync := .reading }
  | _ => none

/-- The reply to `READ`. Bytes that are not the service's reply are malformed: they do not pass the
checks of size and shape. -/
def readReply (w : World) (delivery : Delivery) : Option World :=
  match w.sync, w.cursor with
  | .reading, some c =>
    match delivery, w.receive (w.request accessRead c.acknowledged) delivery with
    | .broken _, some reply => if readAccepted c reply then none else some (w.fail c)
    | .answered _, some reply =>
      if readAccepted c reply then
        if reply.batch.event = [] then some w.succeed
        else some { w with sync := .applying reply.batch }
      else some (w.fail c)
    | _, none => none
  | _, _ => none

def apply (w : World) (applier : Applier) : Option World :=
  match w.sync, w.cursor with
  | .applying batch, some c =>
    let (came, result) := accessApplyBatch applier w.as batch.event
    let w := { w with applied := w.applied ++ came }
    if result then some { w with sync := .acking batch } else some (w.fail c)
  | _, _ => none

def ackReply (w : World) (delivery : Delivery) : Option World :=
  match w.sync, w.cursor with
  | .acking batch, some c =>
    match w.receive (w.request accessAck batch.cursor) delivery with
    | some reply =>
      if ackAccepted c batch reply then
        let w := { w with cursor := some { c with acknowledged := batch.cursor } }
        if batch.event.length < accessMax then some w.succeed else some { w with sync := .reading }
      else some (w.fail c)
    | none => none
  | _, _ => none

def control (w : World) (task : Option Nat) (current : Nat) (mm : Bool)
    (arg : Option AccessRequest) : World :=
  let (slot, result) := w.slot.ctlAccess task current mm arg
  let pc := match result with
    | .ok out => .copying out
    | .error errno => .returned (.error errno)
  { w with
    slot := slot
    calls := fun id => if id = w.callCount then some ⟨arg, pc⟩ else w.calls id
    callCount := w.callCount + 1 }

def copyOut (w : World) (call : Nat) (fault : Bool) : Option World :=
  match w.calls call with
  | some ⟨arg, .copying out⟩ =>
    let back result : Nat → Option Call := fun id =>
      if id = call then some ⟨arg, .returned result⟩ else w.calls id
    if fault then some { w with calls := back (.error .EFAULT) }
    else
      some { w with
        calls := back (.ok out)
        slot := w.slot.publish out
        copied := if out.op = accessRead then w.copied ++ out.event else w.copied }
  | _ => none

/-- A section of the kernel, or a step of `access_sync`. -/
def next (w : World) : Act → Option World
  | .commit c =>
    let slot := w.slot.accessCommit c
    some { w with
      slot := slot
      committed := w.committed ++ slot.accessLog.drop w.slot.accessLog.length }
  | .note => some { w with slot := w.slot.mmlogNote }
  | .control task current mm arg => some (w.control task current mm arg)
  | .copyOut call fault => w.copyOut call fault
  | .syncStart error => w.syncStart error
  | .readReply delivery => w.readReply delivery
  | .apply applier => w.apply applier
  | .ackReply delivery => w.ackReply delivery

end World

def World.start (monTgid traceId as : Nat) : World where
  slot := ⟨monTgid, traceId, 0, [], 0, 0, 0, none, fun _ => none⟩
  calls := fun _ => none
  callCount := 0
  as := as
  cursor := none
  sync := .idle
  committed := []
  copied := []
  applied := []
  returns := []

def Step : World → Act → World → Prop := System.Computed World.next

def Reached (w : World) : Prop :=
  ∃ monTgid traceId as, System.Reach Step (World.start monTgid traceId as) w

end Vmctx.Journal
