import Vmctx.Connection.Transfer
/-!
# The custody of a connection

One connection thread keeps its tickets in a collection: `source_custody_begin` enters one, and only
a confirmed `FORGET` or the abandonment of the whole collection removes one. The page requests of
`serve` are sequences of these calls. The controls that were issued are kept, newest first, each
with the entry it was issued for; entries are told apart by the number of their allocation.
-/

namespace Vmctx.Connection

/-- `struct source_custody_entry`. -/
structure Entry where
  id : Nat
  target : MmBinding
  transfer : Handle
  deriving DecidableEq, Repr

/-- `struct source_custody`, with its list as it is linked. -/
structure Collection where
  pending : List Entry
  count : Nat
  owner : Option Nat
  closed : Bool
  deriving DecidableEq, Repr

structure Issue where
  entry : Option Nat
  control : Control

/-- The pending transfers and the controls issued. -/
structure World where
  custody : Collection
  fresh : Nat
  issued : List Issue

structure Outcome where
  result : Except Errno Unit
  entry : Option Nat
  bytes : Option PageBytes

def Outcome.of (result : Except Errno Unit) : Outcome := ⟨result, none, none⟩

def sizeMax : Nat := 2 ^ 64 - 1

def intMax : Nat := 2 ^ 31 - 1

namespace Collection

/-- `source_custody_thread`: the first caller owns the collection. -/
def thread (c : Collection) (self : Nat) : Except Errno Collection :=
  match c.owner with
  | some owner => if owner = self then .ok c else .error .EPERM
  | none => .ok { c with owner := some self }

/-- `source_custody_find`. -/
def find (c : Collection) (target : Option MmBinding) (address ticket : Nat) :
    Except Errno Entry :=
  if c.closed then .error .ESHUTDOWN
  else
    match target with
    | none => .error .EINVAL
    | some target =>
      if target.valid = false ∨ ticket = 0 ∨ misaligned address then .error .EINVAL
      else
        match c.pending.find? (·.transfer.ticket = ticket) with
        | none => .error .ENOENT
        | some e =>
          if e.transfer.address ≠ address ∨ e.target ≠ target then .error .ESTALE else .ok e

def set (c : Collection) (id : Nat) (h : Handle) : Collection :=
  { c with pending := c.pending.map fun e => if e.id = id then { e with transfer := h } else e }

def unlink (c : Collection) (id : Nat) : Collection :=
  { c with pending := c.pending.eraseP (·.id = id), count := c.count - 1 }

end Collection

namespace World

def new : World := ⟨⟨[], 0, none, false⟩, 0, []⟩

def note (w : World) (entry : Option Nat) (issued : Option Control) : World :=
  { w with issued := (issued.map (Issue.mk entry)).toList ++ w.issued }

def adapt {α : Type} (w : World) (id : Nat) (did : Adapted α) : World :=
  { w.note (some id) did.issued with custody := w.custody.set id did.handle }

/-- `source_custody_begin`. `memory` is the outcome of the allocation. -/
def begin (w : World) (self : Nat) (target : Option MmBinding) (address : Nat) (memory : Bool)
    (native : Native) : World × Outcome :=
  match w.custody.thread self with
  | .error errno => (w, .of (.error errno))
  | .ok custody =>
    let w := { w with custody := custody }
    if custody.closed then (w, .of (.error .ESHUTDOWN))
    else
      match target with
      | none => (w, .of (.error .EINVAL))
      | some target =>
        if target.valid = false ∨ intMax < target.context ∨ misaligned address then
          (w, .of (.error .EINVAL))
        else if custody.count = sizeMax then (w, .of (.error .EOVERFLOW))
        else if memory = false then (w, .of (.error .ENOMEM))
        else
          let did := Handle.zero.begin target.mm address native
          let after := { w.note (some w.fresh) did.issued with fresh := w.fresh + 1 }
          if did.handle.begun then
            ({ after with custody := { custody with
                pending := ⟨w.fresh, target, did.handle⟩ :: custody.pending
                count := custody.count + 1 } },
              ⟨did.result, some w.fresh, none⟩)
          else (after, .of did.result)

def capture (w : World) (id : Nat) (native : Native) : Option (World × Outcome) :=
  (w.custody.pending.find? (·.id = id)).map fun e =>
    let did := e.transfer.capture native
    (w.adapt id did, .of did.result)

def read (w : World) (id buf : Nat) (staging : PageBytes) (native : Native) :
    Option (World × Outcome) :=
  (w.custody.pending.find? (·.id = id)).map fun e =>
    let did := e.transfer.readBytes buf staging native
    (w.adapt id did, match did.result with
      | .error errno => .of (.error errno)
      | .ok bytes => ⟨.ok (), none, bytes⟩)

/-- `source_custody_retire`. -/
def retire (w : World) (id : Nat) (h : Handle) (native : Native) : World × Except Errno Unit :=
  let did := h.forget native
  let w := w.note (some id) did.issued
  match did.result with
  | .error errno => (w, .error errno)
  | .ok () => ({ w with custody := w.custody.unlink id }, .ok ())

/-- `source_custody_ack`; `forget` is the kernel's answer to the retirement. -/
def ack (w : World) (self : Nat) (target : Option MmBinding) (address ticket : Nat)
    (native forget : Native) : World × Outcome :=
  match w.custody.thread self with
  | .error errno => (w, .of (.error errno))
  | .ok custody =>
    let w := { w with custody := custody }
    match custody.find target address ticket with
    | .error errno => (w, .of (.error errno))
    | .ok e =>
      let did := e.transfer.ack native
      let w := w.adapt e.id did
      if did.handle.settled = false then (w, .of did.result)
      else
        match w.retire e.id did.handle forget with
        | (w, .error errno) => (w, .of (.error errno))
        | (w, .ok ()) => (w, .of did.result)

/-- `source_custody_cancel`. -/
def cancel (w : World) (self : Nat) (target : Option MmBinding) (address ticket : Nat)
    (native forget : Native) : World × Outcome :=
  match w.custody.thread self with
  | .error errno => (w, .of (.error errno))
  | .ok custody =>
    let w := { w with custody := custody }
    match custody.find target address ticket with
    | .error errno => (w, .of (.error errno))
    | .ok e =>
      let did := e.transfer.cancel native
      let w := w.adapt e.id did
      match did.result with
      | .error errno => (w, .of (.error errno))
      | .ok () =>
        let out := w.retire e.id did.handle forget
        (out.1, .of out.2)

/-- `source_custody_abandon`. The collection is closed before the control. -/
def abandon (w : World) (self : Nat) (native : Native) : World × Outcome :=
  match w.custody.thread self with
  | .error errno => (w, .of (.error errno))
  | .ok custody =>
    let control : Control := ⟨.abandon, 0, 0, 0, 0, native⟩
    let w := { w.note none (some control) with custody := { custody with closed := true } }
    match native with
    | .error errno => (w, .of (.error errno))
    | .ok _ =>
      ({ w with custody := { w.custody with pending := [], count := 0 } }, .of (.ok ()))

end World

/-- The calls on a collection, with the native results they meet. -/
inductive Call
  | begin (self : Nat) (target : Option MmBinding) (address : Nat) (memory : Bool)
      (native : Native)
  | capture (id : Nat) (native : Native)
  | read (id buf : Nat) (staging : PageBytes) (native : Native)
  | ack (self : Nat) (target : Option MmBinding) (address ticket : Nat) (native forget : Native)
  | cancel (self : Nat) (target : Option MmBinding) (address ticket : Nat)
      (native forget : Native)
  | abandon (self : Nat) (native : Native)

def World.call (w : World) : Call → Option (World × Outcome)
  | .begin self target address memory native => some (w.begin self target address memory native)
  | .capture id native => w.capture id native
  | .read id buf staging native => w.read id buf staging native
  | .ack self target address ticket native forget =>
    some (w.ack self target address ticket native forget)
  | .cancel self target address ticket native forget =>
    some (w.cancel self target address ticket native forget)
  | .abandon self native => some (w.abandon self native)

/-! ## The page requests of `serve` -/

/-- What `ctx_page` answers. -/
inductive PageAnswer
  | page (bytes : PageBytes) (generation episode : Nat)
  | failed
  | cowbreak
  | claiming
  | notHolder
  | absent
  | error (errno : Errno)

/-- The outcomes a page request meets: whether the page is still shared with the parent of a fork,
the allocation, the native results, and the buffer. -/
structure PageNatives where
  shared : Option Bool
  memory : Bool
  begun : Native
  captured : Native
  readOut : Native
  buf : Nat
  staging : PageBytes
  cancelled : Native
  forgotten : Native

def pgSize : Nat := 4096

def int64Max : Nat := 2 ^ 63 - 1

/-- `VMCTX_SERVE_CLAIMING`, `DENIED` and `NOMAP`, and the record state `THEIRS`. -/
def serveClaiming : Nat := 4
@[inherit_doc serveClaiming] def serveDenied : Nat := 5
@[inherit_doc serveClaiming] def pgTheirs : Nat := 2

namespace World

def undelivered (captured : TransferBlock) : PageAnswer :=
  if captured.status = serveClaiming then .claiming
  else if captured.status = Handle.serveAbsent then
    if captured.state = pgTheirs then .notHolder else .absent
  else if captured.status = serveDenied then .error .EACCES
  else if captured.status = Handle.serveNomap then .error .EFAULT
  else .failed

def delivers (captured : TransferBlock) : Bool :=
  captured.status = Handle.serveTaken ∨ captured.status = Handle.serveCopied ∨
    captured.status = Handle.serveAbsent ∧ captured.flags = Handle.serveGrant

def handle (w : World) (id : Nat) : Handle :=
  ((w.custody.pending.find? (·.id = id)).map (·.transfer)).getD .zero

/-- `ctx_page`, past its argument checks, for the entry that `begin` has returned. -/
def ctxPageCaptured (w : World) (self : Nat) (target : MmBinding) (address id : Nat)
    (n : PageNatives) : World × PageAnswer :=
  match w.capture id n.captured with
  | none => (w, .failed)
  | some (after, outcome) =>
    let episode := (after.handle id).ticket
    match outcome.result with
    | .error errno =>
      if errno = .EBUSY then
        let out := after.cancel self (some target) address episode n.cancelled n.forgotten
        match out.2.result with
        | .ok () => (out.1, .claiming)
        | .error _ => (out.1, .failed)
      else (after, .failed)
    | .ok () =>
      let captured := (after.handle id).result
      if delivers captured then
        match after.read id n.buf n.staging n.readOut with
        | none => (after, .failed)
        | some (w, outcome) =>
          match outcome.result with
          | .error _ => (w, .failed)
          | .ok () => (w, .page (outcome.bytes.getD zeroPage) captured.gen episode)
      else
        let out := after.cancel self (some target) address episode n.cancelled n.forgotten
        match out.2.result with
        | .error _ => (out.1, .failed)
        | .ok () => (out.1, undelivered captured)

/-- `ctx_page`: begin, capture and read under one ticket. -/
def ctxPage (w : World) (self : Nat) (target : MmBinding) (address length capacity : Nat)
    (n : PageNatives) : World × PageAnswer :=
  if length ≠ pgSize ∨ misaligned address ∨ capacity < length ∨ int64Max - length < address then
    (w, .failed)
  else
    match n.shared with
    | none => (w, .failed)
    | some true => (w, .cowbreak)
    | some false =>
      let out := w.begin self (some target) address n.memory n.begun
      match out.2.result, out.2.entry with
      | .ok (), some id => out.1.ctxPageCaptured self target address id n
      | .ok (), none => (out.1, .failed)
      | .error errno, none =>
        (out.1, if errno = .ESRCH ∨ errno = Errno.ENXIO then .error errno else .failed)
      | .error _, some _ => (out.1, .failed)

end World

/-- `VMR_OP_CTXPAGE`, `VMR_OP_INSTALLED`, `VMR_OP_STALETRAIL` and `VMR_OP_FINISH`. -/
def opCtxPage : Nat := 0x1009
@[inherit_doc opCtxPage] def opInstalled : Nat := 0x100b
@[inherit_doc opCtxPage] def opStaleTrail : Nat := 0x100c
@[inherit_doc opCtxPage] def opFinish : Nat := 0x1004

structure PageRequest where
  nr : Nat
  formed : Bool
  target : MmBinding
  address : Nat
  arg : Nat
  plain : Bool
  capacity : Nat

structure Serve where
  world : World
  running : Bool
  processed : List (Nat × Nat)

def nested (nr : Nat) : Bool := nr = opCtxPage ∨ nr = opInstalled ∨ nr = opStaleTrail

namespace Serve

/-- `source_connection_close`. It ends the process when the abandonment fails and when an entry was
pending. -/
def close (s : Serve) (self : Nat) (native : Native) : Serve :=
  let unresolved := s.world.custody.count
  let out := s.world.abandon self native
  let s := { s with world := out.1 }
  match out.2.result with
  | .error _ => { s with running := false }
  | .ok () => if unresolved = 0 then s else { s with running := false }

def leave (s : Serve) (self : Nat) (native : Native) : Serve :=
  { s.close self native with running := false }

/-- The requests of `serve` that concern pages, with `ctx_page_ack`. -/
def process (s : Serve) (self : Nat) (rq : PageRequest) (n : PageNatives) (ack forget : Native)
    (abandoned : Native) : Serve :=
  let s := { s with processed := (rq.nr, s.world.custody.pending.length) :: s.processed }
  if rq.nr = opCtxPage then
    { s with world := (s.world.ctxPage self rq.target rq.address rq.arg rq.capacity n).1 }
  else if rq.nr = opInstalled then
    if rq.plain then
      { s with world := (s.world.ack self (some rq.target) rq.address rq.arg ack forget).1 }
    else s
  else if rq.nr = opFinish then s.close self abandoned
  else s

/-- One turn of the loop; none when it does not run. `goesOn` says whether the request and its reply
leave the connection open. -/
def request (s : Serve) (self : Nat) (rq : PageRequest) (n : PageNatives) (ack forget : Native)
    (abandoned : Native) (goesOn : Bool) : Option Serve :=
  if s.running = false then none
  else if rq.formed = false then some (s.leave self abandoned)
  else if s.world.custody.count ≠ 0 ∧ nested rq.nr = false then some (s.leave self abandoned)
  else
    let after := s.process self rq n ack forget abandoned
    if after.running ∧ goesOn = false then some (after.leave self abandoned) else some after

def new : Serve := ⟨.new, true, []⟩

end Serve

end Vmctx.Connection
