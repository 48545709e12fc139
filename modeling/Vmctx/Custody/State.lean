import Mathlib.Logic.Function.Basic
import Mathlib.Tactic.Simps.Basic
import Vmctx.Machine
/-!
# Page custody in the source kernel

An address space keeps one record per page, saying which machine holds the page or which hand-over
is in flight, and one reservation per page at most, owned by a recall ticket, a local page
operation or a transfer ticket. Source faults claim pages. Everything here changes in sections under
one spin lock, apart from single compare-and-swaps of a page record, so the kernel is a state and
each section is a step. Every address space modelled has a record; the lifetime of the slot that
keeps it is not part of this model.

History variables stand beside the fields of the source and no step reads them to decide anything:
who wrote the current record of a page, how often the page was erased, the number of a fault's
claim, and the counts of captures and of record changes by acknowledgements.
-/

namespace Vmctx.Custody

open Function

/-- A page of an address space. -/
structure Page where
  mm : Nat
  idx : Nat
  deriving DecidableEq, Repr

/-- Where a page's record says it is, `VMCTX_PG_*`. -/
inductive PgState
  | none | home | remote | claim | transit
  deriving DecidableEq, Repr

/-- A page record: the state, the 16-bit sum of a hand-over and the generation of the last copy
received. -/
structure PgRec where
  state : PgState
  sum : UInt16
  gen : UInt32
  deriving DecidableEq, Repr

def PgRec.absent : PgRec := ⟨.none, 0, 0⟩

def PgRec.inFlight (r : PgRec) : Bool := r.state == .claim || r.state == .transit

/-- A reservation of a page, as the `recalls` table names it. -/
inductive Holder
  | recallTicket (id : Nat)
  | guard (op : Nat)
  | transfer (id : Nat)
  deriving DecidableEq, Repr

/-- The entry of a reserved page. The cancellation flag of the source lies in the reservation; a
reservation outside the table is never cancelled and its flag is never read again once it left. -/
structure Entry where
  holder : Holder
  cancelled : Bool
  deriving DecidableEq, Repr

/-- Who wrote a page's record last. -/
inductive Writer
  | nobody
  | fault (episode : Nat)
  | recallTicket (id : Nat)
  | guard (op : Nat)
  | transfer (id : Nat)
  | pgset
  | pgack
  deriving DecidableEq, Repr

/-- What the kernel has of a page. -/
@[ext] structure PageState where
  record : PgRec
  entry : Option Entry
  frame : Option Nat
  wrote : Writer
  erasures : Nat
  deriving DecidableEq, Repr

namespace PageState

def fresh : PageState := ⟨.absent, none, none, .nobody, 0⟩

def write (s : PageState) (r : PgRec) (who : Writer) : PageState :=
  { s with record := r, wrote := who }

def store (s : PageState) (r : PgRec) (who : Writer) (nomem : Bool) : PageState :=
  if s.record = .absent ∧ nomem = true then s else s.write r who

def reserve (s : PageState) (holder : Holder) : PageState :=
  { s with entry := some ⟨holder, false⟩ }

def release (s : PageState) : PageState := { s with entry := none }

/-- The note that the page is unmapped, discarded or denied: its reservation is cancelled and stays,
its record goes. The page tables change later, and with them its frame. -/
def erase (s : PageState) : PageState :=
  { s with
    record := .absent
    wrote := .nobody
    entry := s.entry.map fun e => { e with cancelled := true }
    erasures := s.erasures + 1 }

def cancelled (s : PageState) (holder : Holder) : Bool := s.entry == some ⟨holder, true⟩

end PageState

/-- A fault that waits for its page. -/
structure Fault where
  page : Page
  claimed : Bool
  prior : PgState
  episode : Nat
  deriving DecidableEq, Repr

/-- The monitor's answers to a fault, `VMCTX_ACT_*`. -/
inductive Action
  | done | self | kill | retry
  deriving DecidableEq, Repr

/-- Where the owner of a recall is. -/
inductive RecallPc
  | idle
  | committing (gen : UInt32) (bytes : PageBytes)
  | pinned (gen : UInt32) (bytes : PageBytes) (frame : Nat)
  | consuming (result : Option Errno)

/-- `struct vmctx_recall_ticket`. -/
structure RecallTicket where
  page : Page
  owner : Nat
  prior : PgRec
  pc : RecallPc
  birth : Nat

/-- What a local operation does. -/
inductive OpKind
  | land (page : Page) (gen : UInt32) (ifAbsent : Bool) (bytes : PageBytes)
  | poke (mm addr len : Nat) (bytes : Nat → UInt8)
  | take (page : Page)

def OpKind.pages : OpKind → List Page
  | land page .. => [page]
  | poke mm addr len _ =>
    (List.range ((addr % 4096 + len + 4095) / 4096)).map fun i => ⟨mm, addr / 4096 + i⟩
  | take page => [page]

def OpKind.takes : OpKind → Page → Bool
  | take page, p => p == page
  | _, _ => false

def OpKind.patch (kind : OpKind) (page : Page) (old : PageBytes) : PageBytes :=
  match kind with
  | land _ _ _ bytes => bytes
  | poke _ addr len bytes => fun offset =>
    let at_ := page.idx * 4096 + offset
    if addr ≤ at_ ∧ at_ < addr + len then bytes (at_ - addr) else old offset
  | take _ => old

/-- Where a local operation is. -/
inductive OpPc
  | reserving
  | checked
  | pinned (frames : List Nat)
  | ending (result : Option Errno)
  deriving DecidableEq

/-- A `LAND`, `POKE` or `TAKE` in progress. -/
structure LocalOp where
  kind : OpKind
  todo : List Page
  held : List Page
  pc : OpPc

/-- What a capture reads of a mapping. -/
structure Vma where
  filed : Bool
  shared : Bool
  ro : Bool
  mayWrite : Bool
  denied : Bool
  deriving DecidableEq, Repr

/-- The answers of a capture, `VMCTX_SERVE_*`. -/
inductive ServeStatus
  | taken | copied | absent | claiming | denied | noMap
  deriving DecidableEq, Repr

/-- `struct vmctx_serve`, as a capture fills it. -/
structure Served where
  status : Option ServeStatus
  grant : Bool
  cls : Option Vma
  present : Bool
  state : PgState
  gen : UInt32
  sum : UInt16
  deriving DecidableEq, Repr

def Served.empty : Served := ⟨none, false, none, false, .none, 0, 0⟩

/-- Where a control of a transfer is. -/
inductive TransferPc
  | replying
  | idle
  | guarding
  | entering
  | sharing (record : PgRec) (sv : Served)
  | copying (record claim : PgRec) (sv : Served)
  | marking (sv : Served)
  | taking (state : PgState) (sv : Served)
  | captured (error : Option Errno) (sv : Served)
  | reading (copied : Bool)
  | dropping (cancel : Bool)
  deriving DecidableEq

/-- `struct vmctx_transfer_ticket`. -/
structure Transfer where
  page : Page
  mmIdentity : Nat
  owner : Nat
  attempted : Bool
  acknowledged : Bool
  offered : Bool
  poisoned : Bool
  captureResult : Option Errno
  ackResult : Option Errno
  result : Served
  bytes : PageBytes
  guarded : Bool
  pc : TransferPc

/-- The capture handed the page, or the right to fill it, to the ticket, `vmctx_transfer_grants`. -/
def Transfer.grants (t : Transfer) : Bool :=
  t.attempted && t.captureResult.isNone && (t.result.status == some .taken || t.result.grant)

/-- The custody state of the kernel. -/
structure Kernel where
  pages : Page → PageState
  memory : Nat → PageBytes
  accessError : Nat → Option Errno
  pins : Nat → Nat
  traceId : Nat → Nat
  monTgid : Nat → Nat
  tgid : Nat → Nat
  faults : Nat → Option Fault
  episodes : Nat
  recallNext : Nat
  recalls : Nat → Option RecallTicket
  opNext : Nat
  ops : Nat → Option LocalOp
  transferNext : Nat
  transferListed : List Nat
  transfers : Nat → Option Transfer
  transferLive : Nat
  transferCaptures : Nat
  transferReads : Nat
  transferAbandoned : Nat
  runs : Nat → Nat
  ackWrites : Nat → Nat

namespace Kernel

/-- A kernel without tickets, faults or records. The identities of threads and address spaces are
its parameters. -/
def start (memory : Nat → PageBytes) (pins traceId monTgid tgid : Nat → Nat) : Kernel where
  pages _ := .fresh
  memory := memory
  accessError _ := none
  pins := pins
  traceId := traceId
  monTgid := monTgid
  tgid := tgid
  faults _ := none
  episodes := 0
  recallNext := 0
  recalls _ := none
  opNext := 0
  ops _ := none
  transferNext := 0
  transferListed := []
  transfers _ := none
  transferLive := 0
  transferCaptures := 0
  transferReads := 0
  transferAbandoned := 0
  runs _ := 0
  ackWrites _ := 0

/-- A store to a page's record, as by `vmctx_pgrec_set`. -/
@[simps -fullyApplied pages recalls ops transfers faults]
def setPage (k : Kernel) (p : Page) (s : PageState) : Kernel :=
  { k with pages := update k.pages p s }

@[simps -fullyApplied pages recalls ops transfers faults]
def pin (k : Kernel) (mm : Nat) : Kernel :=
  { k with pins := update k.pins mm (k.pins mm + 1) }

@[simps -fullyApplied pages recalls ops transfers faults]
def unpin (k : Kernel) (mm : Nat) : Kernel :=
  { k with pins := update k.pins mm (k.pins mm - 1) }

@[simps -fullyApplied pages recalls ops transfers faults]
def setRecall (k : Kernel) (id : Nat) (t : Option RecallTicket) : Kernel :=
  { k with recalls := update k.recalls id t }

@[simps -fullyApplied pages recalls ops transfers faults]
def setOp (k : Kernel) (id : Nat) (op : Option LocalOp) : Kernel :=
  { k with ops := update k.ops id op }

@[simps -fullyApplied pages recalls ops transfers faults]
def setTransfer (k : Kernel) (id : Nat) (t : Option Transfer) : Kernel :=
  { k with transfers := update k.transfers id t }

@[simps -fullyApplied pages recalls ops transfers faults]
def setFault (k : Kernel) (task : Nat) (fault : Option Fault) : Kernel :=
  { k with faults := update k.faults task fault }

end Kernel

/-- What a section returns. -/
inductive Reply
  | ok
  | one
  | wrote
  | ticket (id : Nat)
  | served (result : Served) (bytes : Option PageBytes)
  | waits
  | failed (errno : Errno)

end Vmctx.Custody
