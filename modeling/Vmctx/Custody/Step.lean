import Vmctx.Custody.Transfers
import Vmctx.System.Run
/-!
# The kernel as a transition system

Every section of every operation is an action, so a run is any interleaving of any number of
threads. `step` dispatches an action to its section.
-/

namespace Vmctx.Custody

open Kernel

/-- The sections of all operations, with what their environment decides. -/
inductive Act
  | erase (mm first last : Nat)
  | zap (mm first last : Nat)
  | populate (page : Page) (frame : Nat)
  | store (frame : Nat) (bytes : PageBytes)
  | accessFail (mm : Nat) (errno : Errno)
  | claim (task : Nat) (page : Page) (mayWait nomem : Bool)
  | land (task : Nat) (action : Action)
  | recallBegin (who : Nat) (page : Page) (vma nomem : Bool)
  | recallFinish (who id idx : Nat) (op : RecallOp)
  | recallPin (id : Nat) (gup : Except Errno Nat)
  | recallLand (id : Nat)
  | recallConsume (id : Nat)
  | recallExit (who id : Nat)
  | opBegin (kind : OpKind)
  | opReserve (id : Nat) (nomem : Bool)
  | opCheck (id : Nat) (taken : Bool)
  | opPin (id : Nat) (gup : Except Errno (List Nat))
  | opWrite (id : Nat) (nomem : List Page)
  | opEnd (id : Nat)
  | pgset (page : Page) (state : PgState) (gen : UInt32) (nomem : Bool)
  | pgack (page : Page) (sum : UInt16)
  | transferBegin (who : Nat) (page : Page) (mmIdentity : Nat)
  | transferReply (id : Nat) (copied : Bool)
  | transferCapture (who id mmIdentity idx : Nat) (copied : Bool)
  | captureGuard (id : Nat) (nomem : Bool)
  | captureRead (id : Nat) (vma : Option Vma) (held : Bool) (copy : Copy)
  | captureClaim (id : Nat) (nomem : Bool)
  | captureShared (id : Nat) (copy : Copy)
  | captureMark (id : Nat) (nomem : Bool)
  | captureTake (id : Nat) (copy : Copy)
  | captureFinish (id : Nat) (copied : Bool)
  | transferRead (who id mmIdentity idx : Nat) (copied : Bool)
  | transferReadEnd (id : Nat) (copied : Bool)
  | transferAck (who id mmIdentity idx : Nat) (cancel copied : Bool)
  | transferDrop (id : Nat) (copied : Bool)
  | transferForget (who id mmIdentity idx : Nat)
  | transferOwnerExit (who : Nat)
  | transferDispose (id : Nat)

def Act.ofFault : Act → Bool
  | .claim .. => true
  | .land .. => true
  | _ => false

def Act.ofRecall : Act → Bool
  | .recallBegin .. => true
  | .recallFinish .. => true
  | .recallPin .. => true
  | .recallLand .. => true
  | .recallConsume .. => true
  | .recallExit .. => true
  | _ => false

def Act.ofOp : Act → Bool
  | .opBegin .. => true
  | .opReserve .. => true
  | .opCheck .. => true
  | .opPin .. => true
  | .opWrite .. => true
  | .opEnd .. => true
  | _ => false

def Act.ofTransfer : Act → Bool
  | .transferBegin .. => true
  | .transferReply .. => true
  | .transferCapture .. => true
  | .captureGuard .. => true
  | .captureRead .. => true
  | .captureClaim .. => true
  | .captureShared .. => true
  | .captureMark .. => true
  | .captureTake .. => true
  | .captureFinish .. => true
  | .transferRead .. => true
  | .transferReadEnd .. => true
  | .transferAck .. => true
  | .transferDrop .. => true
  | .transferForget .. => true
  | .transferOwnerExit .. => true
  | .transferDispose .. => true
  | _ => false

/-- One critical section of the kernel, with what it returns. -/
def step (k : Kernel) : Act → Result
  | .erase mm first last => k.pgrecEraseRange mm first last
  | .zap mm first last => k.zap mm first last
  | .populate page frame => k.populate page frame
  | .store frame bytes => k.store frame bytes
  | .accessFail mm errno => k.accessFail mm errno
  | .claim task page mayWait nomem => k.pgrecClaim task page mayWait nomem
  | .land task action => k.pgrecLand task action
  | .recallBegin who page vma nomem => k.recallBegin who page vma nomem
  | .recallFinish who id idx op => k.recallFinish who id idx op
  | .recallPin id gup => k.recallPin id gup
  | .recallLand id => k.recallLand id
  | .recallConsume id => k.recallConsume id
  | .recallExit who id => k.recallExit who id
  | .opBegin kind => k.opBegin kind
  | .opReserve id nomem => k.opReserve id nomem
  | .opCheck id taken => k.opCheck id taken
  | .opPin id gup => k.opPin id gup
  | .opWrite id nomem => k.opWrite id nomem
  | .opEnd id => k.opEnd id
  | .pgset page state gen nomem => k.ctlPgset page state gen nomem
  | .pgack page sum => k.ctlPgack page sum
  | .transferBegin who page mmIdentity => k.transferBegin who page mmIdentity
  | .transferReply id copied => k.transferReply id copied
  | .transferCapture who id mmIdentity idx copied => k.transferCapture who id mmIdentity idx copied
  | .captureGuard id nomem => k.captureGuard id nomem
  | .captureRead id vma held copy => k.captureRead id vma held copy
  | .captureClaim id nomem => k.captureClaim id nomem
  | .captureShared id copy => k.captureShared id copy
  | .captureMark id nomem => k.captureMark id nomem
  | .captureTake id copy => k.captureTake id copy
  | .captureFinish id copied => k.captureFinish id copied
  | .transferRead who id mmIdentity idx copied => k.transferRead who id mmIdentity idx copied
  | .transferReadEnd id copied => k.transferReadEnd id copied
  | .transferAck who id mmIdentity idx cancel copied =>
    k.transferAck who id mmIdentity idx cancel copied
  | .transferDrop id copied => k.transferDrop id copied
  | .transferForget who id mmIdentity idx => k.transferForget who id mmIdentity idx
  | .transferOwnerExit who => k.transferOwnerExit who
  | .transferDispose id => k.transferDispose id

def next (k : Kernel) (a : Act) : Option Kernel := (step k a).map Prod.fst

abbrev Step : Kernel → Act → Kernel → Prop := System.Computed next

end Vmctx.Custody
