import Vmctx.Identity
/-!
# The adapter of a transfer ticket

A connection thread of the source holds its page transfers by native tickets. The adapter issues one
control per operation and keeps, beside the ticket, what is known of it: whether it was begun,
captured, read and settled. The native result of a control is an argument: an error, or the argument
block as the control has left it, whatever it says.
-/

namespace Vmctx.Connection

/-- `VMCTX_TRANSFER_*`. -/
inductive TransferOp
  | begin | capture | read | ack | cancel | forget | abandon
  deriving DecidableEq, Repr

def TransferOp.code : TransferOp → Nat
  | .begin => 1
  | .capture => 2
  | .read => 3
  | .ack => 4
  | .cancel => 5
  | .forget => 6
  | .abandon => 7

def transferAbi : Nat := 1

def transferSize : Nat := 80

def transferFeatures : Nat := 7

structure TransferBlock where
  version : Nat
  size : Nat
  op : Nat
  features : Nat
  mm : Nat
  address : Nat
  ticket : Nat
  buf : Nat
  status : Nat
  flags : Nat
  pageClass : Nat
  state : Nat
  gen : Nat
  sum : Nat
  reserved : Nat
  deriving DecidableEq, Repr

def TransferBlock.zero : TransferBlock := ⟨0, 0, 0, 0, 0, 0, 0, 0, 0, 0, 0, 0, 0, 0, 0⟩

def TransferBlock.outcome (q : TransferBlock) : List Nat :=
  [q.status, q.flags, q.pageClass, q.state, q.gen, q.sum]

abbrev Native := Except Errno TransferBlock

/-- A control that was issued: what it named and what it returned. -/
structure Control where
  op : TransferOp
  mm : Nat
  address : Nat
  ticket : Nat
  buf : Nat
  native : Native

/-- `struct source_transfer`. -/
structure Handle where
  mm : Nat
  address : Nat
  ticket : Nat
  result : TransferBlock
  begun : Bool
  captured : Bool
  read : Bool
  settled : Bool
  cancelled : Bool
  settlementError : Option Errno
  deriving DecidableEq, Repr

def Handle.zero : Handle := ⟨0, 0, 0, .zero, false, false, false, false, false, none⟩

structure Adapted (α : Type) where
  handle : Handle
  issued : Option Control
  result : Except Errno α

def misaligned (address : Nat) : Bool := address % 4096 != 0

namespace Handle

def beginFormed (mm address : Nat) (q : TransferBlock) : Bool :=
  q.version = transferAbi ∧ q.size = transferSize ∧ q.op = TransferOp.begin.code ∧ q.mm = mm ∧
    q.address = address ∧ q.ticket ≠ 0 ∧ q.buf = 0 ∧ q.features = 0 ∧ q.status = 0 ∧ q.flags = 0 ∧
    q.pageClass = 0 ∧ q.state = 0 ∧ q.gen = 0 ∧ q.sum = 0 ∧ q.reserved = 0

/-- `source_transfer_begin`; `mm` is the address space of the target. -/
def begin (h : Handle) (mm address : Nat) (native : Native) : Adapted Unit :=
  if mm = 0 ∨ h.begun ∨ h.ticket ≠ 0 ∨ misaligned address then ⟨h, none, .error .EINVAL⟩
  else
    let control : Control := ⟨.begin, mm, address, 0, 0, native⟩
    match native with
    | .error errno => ⟨h, some control, .error errno⟩
    | .ok q =>
      -- Even a malformed reply leaves its ticket in the handle.
      let h := { zero with mm := mm, address := address, ticket := q.ticket, begun := true }
      if beginFormed mm address q then ⟨h, some control, .ok ()⟩
      else ⟨h, some control, .error .EPROTO⟩

def stepFormed (h : Handle) (op : TransferOp) (buf : Nat) (q : TransferBlock) : Bool :=
  op = .forget ∨ q.version = transferAbi ∧ q.size = transferSize ∧ q.op = op.code ∧ q.mm = h.mm ∧
    q.address = h.address ∧ q.ticket = h.ticket ∧ q.buf = buf ∧ q.reserved = 0 ∧
    q.features = transferFeatures

/-- `source_transfer_step`. -/
def step (h : Handle) (op : TransferOp) (buf : Nat) (native : Native) : Adapted TransferBlock :=
  if h.ticket = 0 ∨ h.mm = 0 then ⟨h, none, .error .EINVAL⟩
  else
    ⟨h, some ⟨op, h.mm, h.address, h.ticket, buf, native⟩,
      match native with
      | .error errno => .error errno
      | .ok q => if h.stepFormed op buf q then .ok q else .error .EPROTO⟩

/-- `VMCTX_SERVE_TAKEN`, `COPIED`, `ABSENT` and `NOMAP`, and `VMCTX_SERVE_GRANT`. -/
def serveTaken : Nat := 1
@[inherit_doc serveTaken] def serveCopied : Nat := 2
@[inherit_doc serveTaken] def serveAbsent : Nat := 3
@[inherit_doc serveTaken] def serveNomap : Nat := 6
@[inherit_doc serveTaken] def serveGrant : Nat := 2

def pgTransit : Nat := 4

def captureFormed (q : TransferBlock) : Bool :=
  serveTaken ≤ q.status ∧ q.status ≤ serveNomap ∧ (q.flags = 0 ∨ q.flags = serveGrant) ∧
    q.pageClass < 64 ∧ q.state ≤ pgTransit ∧ q.sum < 65536 ∧
    (q.flags = serveGrant → q.status = serveCopied ∨ q.status = serveAbsent)

/-- `source_transfer_capture`. -/
def capture (h : Handle) (native : Native) : Adapted Unit :=
  let did := h.step .capture 0 native
  match did.result with
  | .error errno => ⟨h, did.issued, .error errno⟩
  | .ok q =>
    if captureFormed q = false then ⟨h, did.issued, .error .EPROTO⟩
    else if h.captured ∧ q.outcome ≠ h.result.outcome then ⟨h, did.issued, .error .EPROTO⟩
    else ⟨{ h with result := q, captured := true }, did.issued, .ok ()⟩

/-- `source_transfer_read`: the caller's bytes are `staging`'s when there are any. -/
def readBytes (h : Handle) (buf : Nat) (staging : PageBytes) (native : Native) :
    Adapted (Option PageBytes) :=
  if h.captured = false then ⟨h, none, .error .EINVAL⟩
  else
    let did := h.step .read buf native
    match did.result with
    | .error errno => ⟨h, did.issued, .error errno⟩
    | .ok q =>
      if q.outcome ≠ h.result.outcome then ⟨h, did.issued, .error .EPROTO⟩
      else
        ⟨{ h with read := true }, did.issued,
          .ok (if q.status = serveTaken ∨ q.status = serveCopied then some staging else none)⟩

/-- `source_transfer_ack`; a settled ticket answers again without a control. -/
def ack (h : Handle) (native : Native) : Adapted Unit :=
  if h.cancelled then ⟨h, none, .error .ECANCELED⟩
  else if h.read = false then ⟨h, none, .error .EINVAL⟩
  else if h.settled then
    ⟨h, none, match h.settlementError with
      | some errno => .error errno
      | none => .ok ()⟩
  else
    let did := h.step .ack 0 native
    match did.result with
    | .ok _ => ⟨{ h with settled := true, settlementError := none }, did.issued, .ok ()⟩
    | .error errno =>
      -- A stale ticket is settled too, as a failure.
      if errno = .ESTALE then
        ⟨{ h with settled := true, settlementError := some errno }, did.issued, .error errno⟩
      else ⟨h, did.issued, .error errno⟩

/-- `source_transfer_cancel`. -/
def cancel (h : Handle) (native : Native) : Adapted Unit :=
  if h.settled then ⟨h, none, .ok ()⟩
  else
    let did := h.step .cancel 0 native
    match did.result with
    | .error errno => ⟨h, did.issued, .error errno⟩
    | .ok _ => ⟨{ h with settled := true, cancelled := true }, did.issued, .ok ()⟩

/-- `source_transfer_forget`. -/
def forget (h : Handle) (native : Native) : Adapted Unit :=
  if h.settled = false then ⟨h, none, .error .EINVAL⟩
  else
    let did := h.step .forget 0 native
    match did.result with
    | .error errno => ⟨h, did.issued, .error errno⟩
    | .ok _ => ⟨.zero, did.issued, .ok ()⟩

end Handle

/-! ## What a call of the adapter does -/

variable {h : Handle} {native : Native} {errno : Errno}

def Control.Names (c : Control) (h : Handle) (op : TransferOp) : Prop :=
  c.op = op ∧ c.mm = h.mm ∧ c.address = h.address ∧ c.ticket = h.ticket ∧ h.ticket ≠ 0

def Control.Done (c : Control) : Prop :=
  ∃ q, c.native = .ok q ∧
    Handle.stepFormed { Handle.zero with mm := c.mm, address := c.address, ticket := c.ticket }
      c.op c.buf q = true

theorem step_cases (h : Handle) (op : TransferOp) (buf : Nat) (native : Native) :
    (h.step op buf native).issued = none ∧ (h.step op buf native).result = .error .EINVAL ∨
    ∃ c : Control, (h.step op buf native).issued = some c ∧ c.Names h op ∧
      ((∃ q, (h.step op buf native).result = .ok q) ↔ c.Done) ∧
      (∀ errno, c.native = .error errno → (h.step op buf native).result = .error errno) ∧
      ∀ errno, (h.step op buf native).result = .error errno → errno ≠ .EPROTO →
        c.native = .error errno := by
  simp only [Handle.step]
  split
  case isTrue => exact .inl ⟨rfl, rfl⟩
  case isFalse real =>
    have ticket : h.ticket ≠ 0 := fun zero => real (.inl zero)
    refine .inr ⟨_, rfl, ⟨rfl, rfl, rfl, rfl, ticket⟩, ?_, ?_, ?_⟩
    · cases native with
      | error errno =>
        exact ⟨fun ⟨_, ok⟩ => (nomatch ok), fun ⟨_, ok, _⟩ => nomatch ok⟩
      | ok q =>
        by_cases formed : h.stepFormed op buf q = true
        · refine ⟨fun _ => ⟨q, rfl, formed⟩, fun _ => ⟨q, ?_⟩⟩
          simp only [formed, if_true]
        · refine ⟨fun ⟨_, ok⟩ => ?_, fun ⟨_, ok, good⟩ => ?_⟩
          · simp only [formed] at ok
            cases ok
          · cases ok
            exact absurd good formed
    · rintro errno ⟨⟩
      rfl
    · intro errno failed other
      cases native with
      | error e =>
        cases failed
        rfl
      | ok q =>
        simp only at failed
        split at failed
        · cases failed
        · cases failed
          exact absurd rfl other

end Vmctx.Connection
