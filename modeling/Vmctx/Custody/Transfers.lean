import Vmctx.Custody.Operations
/-!
# Transfer tickets

The controls of a transfer ticket, one definition per section. The creating thread alone operates a
ticket, one control at a time, so a control finds its ticket waiting. `CAPTURE` runs the native
capture `vmctx_serve_capture` once, which reserves the page, reads its record, and then copies a
read-only page, copies a shared page under a claim, or takes a private page: the private path marks
the record with one compare-and-swap outside the lock. A copy-out to user memory may fail in every
control; it is an argument, and a control whose last copy-out fails has taken effect.
-/

namespace Vmctx.Custody

namespace Kernel

/-- `vmctx_transfer_begin`. -/
def transferBegin (k : Kernel) (who : Nat) (p : Page) (mmIdentity : Nat) : Result :=
  if k.traceId p.mm ≠ mmIdentity then some (k, .failed .ESTALE)
  else if k.monTgid p.mm ≠ k.tgid who then some (k, .failed .EPERM)
  else match k.accessError p.mm with
    | some errno => some (k, .failed errno)
    | none =>
      if k.pins p.mm = 2 ^ 31 - 1 ∨ k.transferNext = 2 ^ 64 - 1 then
        some (k, .failed .EOVERFLOW)
      else
        let id := k.transferNext + 1
        let t : Transfer := ⟨p, mmIdentity, who, false, false, false, false, none, none, .empty,
          zeroPage, false, .replying⟩
        some ({ k with
            transferNext := id
            transferListed := id :: k.transferListed
            transferLive := k.transferLive + 1 }.pin p.mm |>.setTransfer id (some t), .ok)

/-- Free a ticket that is no longer listed, `vmctx_transfer_free`. -/
def transferFree (k : Kernel) (id : Nat) (t : Transfer) : Kernel :=
  let k := if t.guarded then (k.setPage t.page (k.pages t.page).release).unpin t.page.mm else k
  (k.unpin t.page.mm).setTransfer id none

/-- `vmctx_transfer_unlink`. -/
def transferUnlink (k : Kernel) (id : Nat) : Kernel :=
  { k with transferListed := k.transferListed.erase id, transferLive := k.transferLive - 1 }

/-- Copy the reply of a `BEGIN` out. If that fails the ticket is unlinked and freed. -/
def transferReply (k : Kernel) (id : Nat) (copied : Bool) : Result :=
  match k.transfers id with
  | none => none
  | some t =>
    if t.pc ≠ .replying then none
    else if copied then some (k.setTransfer id (some { t with pc := .idle }), .ticket id)
    else some ((k.transferUnlink id).transferFree id t, .failed .EFAULT)

/-- The waiting ticket a control names, or the error of naming one wrongly. -/
def transferFind (k : Kernel) (who id mmIdentity idx : Nat) : Except Errno Transfer :=
  match k.transfers id with
  | none => .error .ENOENT
  | some t =>
    if id ∉ k.transferListed ∨ t.owner ≠ who then .error .ENOENT
    else if t.mmIdentity ≠ mmIdentity ∨ t.page.idx ≠ idx then .error .ESTALE
    else .ok t

def withTransfer (k : Kernel) (who id mmIdentity idx : Nat) (control : Transfer → Result) :
    Result :=
  match k.transferFind who id mmIdentity idx with
  | .error errno => some (k, .failed errno)
  | .ok t => if t.pc = .idle then control t else none

def serve (t : Transfer) (bytes : Option PageBytes) (copied : Bool) : Reply :=
  if copied then .served t.result bytes else .failed .EFAULT

/-- `CAPTURE`, `vmctx_transfer_capture`: report the first outcome again, or start the capture. -/
def transferCapture (k : Kernel) (who id mmIdentity idx : Nat) (copied : Bool) : Result :=
  k.withTransfer who id mmIdentity idx fun t =>
    if t.acknowledged then some (k, .failed .EALREADY)
    else if t.attempted then
      if (k.pages t.page).cancelled (.transfer id) then some (k, .failed .ESTALE)
      else match t.captureResult with
        | some errno => some (k, .failed errno)
        | none => some (k, serve t none copied)
    else some (k.setTransfer id (some { t with attempted := true, pc := .guarding }), .ok)

def captureGuard (k : Kernel) (id : Nat) (nomem : Bool) : Result :=
  match k.transfers id with
  | none => none
  | some t =>
    if t.pc ≠ .guarding then none
    else
      let s := k.pages t.page
      let fail (errno : Errno) : Result :=
        some (k.setTransfer id (some { t with pc := .captured (some errno) t.result }), .ok)
      if s.entry.isSome then fail .EBUSY
      else if s.record.inFlight then fail .EBUSY
      else if k.pins t.page.mm = 2 ^ 31 - 1 then fail .EOVERFLOW
      else if nomem then fail .ENOMEM
      else
        let k := (k.setPage t.page (s.reserve (.transfer id))).pin t.page.mm
        some ({ k with runs := Function.update k.runs id (k.runs id + 1) }.setTransfer id
          (some { t with guarded := true, pc := .entering }), .ok)

inductive Copy
  | page (bytes : PageBytes) (sum : UInt16)
  | absent
  | error (errno : Errno)

def Copy.bytes (copy : Copy) (old : PageBytes) : PageBytes :=
  match copy with
  | .page bytes _ => bytes
  | _ => old

def Copy.frame (copy : Copy) (old : Option Nat) : Option Nat :=
  match copy with
  | .page .. => none
  | _ => old

/-- Where the native capture goes after reading the record: it returns, or takes a path. -/
def captureEnter (s : PageState) (id : Nat) (vma : Option Vma) (held : Bool) (copy : Copy) :
    TransferPc × Option PageBytes :=
  let sv : Served := { Served.empty with state := s.record.state, gen := s.record.gen }
  if s.cancelled (.transfer id) then (.captured (some .ESTALE) sv, none)
  else match vma with
    | none => (.captured none { sv with status := some .noMap }, none)
    | some vma =>
      let sv := { sv with cls := some vma }
      if vma.denied then (.captured none { sv with status := some .denied }, none)
      else if s.record.inFlight then (.captured none { sv with status := some .claiming }, none)
      else if s.record.state = .remote then
        (.captured none { sv with status := some .absent }, none)
      else if vma.ro = true ∧ (vma.shared = true ∨ vma.mayWrite = false) then
        match copy with
        | .error errno => (.captured (some errno) sv, none)
        | .page bytes _ =>
          (.captured none { sv with status := some .copied, present := true }, some bytes)
        | .absent => (.captured none { sv with status := some .absent }, none)
      else if held then (.captured (some .EBUSY) sv, none)
      else if vma.shared then (.sharing s.record sv, none)
      else (.marking sv, none)

/-- The native capture reads the record and the mapping. `held` is a system call's hold on the
page and `copy` what the read-only path would read. -/
def captureRead (k : Kernel) (id : Nat) (vma : Option Vma) (held : Bool) (copy : Copy) : Result :=
  match k.transfers id with
  | none => none
  | some t =>
    if t.pc ≠ .entering then none
    else
      let (pc, bytes) := captureEnter (k.pages t.page) id vma held copy
      some (k.setTransfer id (some { t with pc := pc, bytes := bytes.getD t.bytes }), .ok)

def captureClaim (k : Kernel) (id : Nat) (nomem : Bool) : Result :=
  match k.transfers id with
  | none => none
  | some t =>
    match t.pc with
    | .sharing record sv =>
      let s := k.pages t.page
      let claim : PgRec := ⟨.claim, 0, record.gen⟩
      let fail (errno : Errno) : Result :=
        some (k.setTransfer id (some { t with pc := .captured (some errno) sv }), .ok)
      if s.cancelled (.transfer id) then fail .ESTALE
      else if s.record ≠ record then fail .EAGAIN
      else if s.record = .absent ∧ nomem = true then fail .ENOMEM
      else some ((k.setPage t.page (s.write claim (.transfer id))).setTransfer id
        (some { t with pc := .copying record claim sv }), .ok)
    | _ => none

def captureShared (k : Kernel) (id : Nat) (copy : Copy) : Result :=
  match k.transfers id with
  | none => none
  | some t =>
    match t.pc with
    | .copying record claim sv =>
      let s := k.pages t.page
      let restored := if s.record = claim then s.write record (.transfer id) else s
      let ret (error : Option Errno) (sv : Served) : Option Transfer :=
        some { t with pc := .captured error sv, bytes := copy.bytes t.bytes }
      if s.cancelled (.transfer id) then some (k.setTransfer id (ret (some .ESTALE) sv), .ok)
      else match copy with
        | .page _ sum =>
          let served : Served :=
            { sv with status := some .copied, grant := true, present := true, sum := sum }
          let transit := s.write ⟨.transit, sum, record.gen⟩ (.transfer id)
          if s.record = claim then
            some ((k.setPage t.page transit).setTransfer id (ret none served), .ok)
          else some (k.setTransfer id (ret (some .EAGAIN) sv), .ok)
        | .absent =>
          some ((k.setPage t.page restored).setTransfer id (ret (some .EIOerr) sv), .ok)
        | .error errno =>
          some ((k.setPage t.page restored).setTransfer id (ret (some errno) sv), .ok)
    | _ => none

def captureMark (k : Kernel) (id : Nat) (nomem : Bool) : Result :=
  match k.transfers id with
  | none => none
  | some t =>
    match t.pc with
    | .marking sv =>
      let s := k.pages t.page
      if s.record.state ≠ .home ∧ s.record.state ≠ .none then
        some (k.setTransfer id
          (some { t with pc := .captured none { sv with status := some .claiming } }), .ok)
      else if s.record = .absent ∧ nomem = true then
        some (k.setTransfer id (some { t with pc := .captured (some .EBUSY) sv }), .ok)
      else
        some ((k.setPage t.page (s.write ⟨.transit, 0, s.record.gen⟩ (.transfer id))).setTransfer id
          (some { t with pc := .taking s.record.state sv }), .ok)
    | _ => none

/-- What the private path does after taking: the record to write, and what the capture returns. -/
def captureOutcome (state : PgState) (sv : Served) (copy : Copy) (gen : UInt32) :
    PgRec × Option Errno × Served :=
  match copy with
  | .page _ sum =>
    (⟨.transit, sum, gen⟩, none, { sv with status := some .taken, present := true, sum := sum })
  | .error errno => (⟨state, 0, gen⟩, some errno, sv)
  | .absent =>
    if state = .home then (⟨.home, 0, gen⟩, none, { sv with status := some .claiming })
    else (⟨.transit, 0, gen⟩, none, { sv with status := some .absent, grant := true })

/-- The private path writes the outcome over its mark, if the mark still stands. -/
def captureTake (k : Kernel) (id : Nat) (copy : Copy) : Result :=
  match k.transfers id with
  | none => none
  | some t =>
    match t.pc with
    | .taking state sv =>
      let s := k.pages t.page
      let (record, error, sv) := captureOutcome state sv copy s.record.gen
      let s := if s.record.state = .transit ∧ s.record.sum = 0 then
        s.write record (.transfer id) else s
      some ((k.setPage t.page { s with frame := copy.frame s.frame }).setTransfer id
        (some { t with pc := .captured error sv, bytes := copy.bytes t.bytes }), .ok)
    | _ => none

/-- The end of a `CAPTURE`: record the outcome, unless the page was erased. -/
def captureFinish (k : Kernel) (id : Nat) (copied : Bool) : Result :=
  match k.transfers id with
  | none => none
  | some t =>
    match t.pc with
    | .captured error sv =>
      let error' := if (k.pages t.page).cancelled (.transfer id) then some .ESTALE else error
      let t : Transfer := { t with
        captureResult := error'
        result := if error = none then sv else t.result
        pc := .idle }
      let k := { k with transferCaptures := k.transferCaptures + 1 }
      some (k.setTransfer id (some t), match error' with
        | some errno => .failed errno
        | none => serve t none copied)
    | _ => none

def carries (sv : Served) : Bool := sv.status == some .taken || sv.status == some .copied

def transferRead (k : Kernel) (who id mmIdentity idx : Nat) (copied : Bool) : Result :=
  k.withTransfer who id mmIdentity idx fun t =>
    if t.attempted = false then some (k, .failed .EINVAL)
    else if t.acknowledged then some (k, .failed .EALREADY)
    else if (k.pages t.page).cancelled (.transfer id) then some (k, .failed .ESTALE)
    else match t.captureResult with
      | some errno => some (k, .failed errno)
      | none => some (k.setTransfer id (some { t with
          offered := true
          pc := .reading (!carries t.result || copied) }), .ok)

def transferReadEnd (k : Kernel) (id : Nat) (copied : Bool) : Result :=
  match k.transfers id with
  | none => none
  | some t =>
    match t.pc with
    | .reading read =>
      let k := { k with transferReads := k.transferReads + 1 }.setTransfer id
        (some { t with pc := .idle })
      if (k.pages t.page).cancelled (.transfer id) then some (k, .failed .ESTALE)
      else if read = false then some (k, .failed .EFAULT)
      else some (k, serve t (if carries t.result then some t.bytes else none) copied)
    | _ => none

/-- `vmctx_transfer_ack` up to its release of the page. -/
def transferAck (k : Kernel) (who id mmIdentity idx : Nat) (cancel copied : Bool) : Result :=
  k.withTransfer who id mmIdentity idx fun t =>
    let s := k.pages t.page
    let gone := s.cancelled (.transfer id)
    let settle (error : Option Errno) : Transfer :=
      { t with acknowledged := true, ackResult := error, pc := .dropping cancel }
    if t.acknowledged then
      if cancel then some (k, serve t none copied)
      else match t.ackResult with
        | none => some (k, serve t none copied)
        | some errno => some (k, .failed errno)
    else if cancel = true ∧ t.grants = true ∧ gone = false then some (k, .failed .EBUSY)
    else if cancel = false ∧ (t.attempted = false ∨ t.captureResult ≠ none ∨ t.offered = false) then
      some (k, .failed .EINVAL)
    else if gone then some (k.setTransfer id (some (settle (some .ESTALE))), .ok)
    else if cancel = false ∧ t.grants = true then
      if s.record.state ≠ .transit then some (k, .failed .EPROTO)
      else
        let k := { k with ackWrites := Function.update k.ackWrites id (k.ackWrites id + 1) }
        some ((k.setPage t.page (s.write ⟨.remote, 0, s.record.gen⟩ (.transfer id))).setTransfer id
          (some (settle none)), .ok)
    else some (k.setTransfer id (some (settle none)), .ok)

/-- Drop the guard of a ticket just settled, `vmctx_transfer_drop_guard`, and reply. -/
def transferDrop (k : Kernel) (id : Nat) (copied : Bool) : Result :=
  match k.transfers id with
  | none => none
  | some t =>
    match t.pc with
    | .dropping cancel =>
      let k := if t.guarded then (k.setPage t.page (k.pages t.page).release).unpin t.page.mm else k
      let t := { t with guarded := false, pc := .idle }
      some (k.setTransfer id (some t), match cancel, t.ackResult with
        | false, some errno => .failed errno
        | _, _ => serve t none copied)
    | _ => none

def transferForget (k : Kernel) (who id mmIdentity idx : Nat) : Result :=
  k.withTransfer who id mmIdentity idx fun t =>
    if t.acknowledged = false then some (k, .failed .EBUSY)
    else some ((k.transferUnlink id).transferFree id t, .ok)

def abandoned (k : Kernel) (id : Nat) (t : Transfer) : Bool :=
  t.grants && !t.acknowledged && !(k.pages t.page).cancelled (.transfer id)

def ownedBy (k : Kernel) (who id : Nat) : Bool :=
  match k.transfers id with
  | none => false
  | some t => t.owner == who

/-- A listed ticket of a thread in an address space that the thread abandons. -/
def abandonsIn (k : Kernel) (who mm id : Nat) : Bool :=
  match k.transfers id with
  | none => false
  | some t => t.owner == who && t.page.mm == mm && k.abandoned id t

/-- `ABANDON`, and the exit of a thread, `vmctx_transfer_owner_exit`: unlist its tickets and poison
the address spaces where it leaves an unsettled grant. It cannot run inside another control of the
thread. -/
def transferOwnerExit (k : Kernel) (who : Nat) : Result :=
  let mine := k.transferListed.filter (k.ownedBy who)
  if mine.any fun id => match k.transfers id with
      | none => false
      | some t => t.pc ≠ .idle
  then none
  else some ({ k with
    accessError := fun mm => if k.transferListed.any (k.abandonsIn who mm) then
      some .ENOTRECOVERABLE else k.accessError mm
    transfers := fun id => (k.transfers id).map fun t =>
      if id ∈ mine then { t with poisoned := t.poisoned || k.abandoned id t } else t
    transferListed := k.transferListed.filter fun id => !k.ownedBy who id
    transferLive := k.transferLive - mine.length
    transferAbandoned := k.transferAbandoned + (mine.filter fun id => match k.transfers id with
      | none => false
      | some t => k.abandoned id t).length }, .ok)

def transferDispose (k : Kernel) (id : Nat) : Result :=
  match k.transfers id with
  | none => none
  | some t => if id ∈ k.transferListed then none else some (k.transferFree id t, .ok)

end Kernel

end Vmctx.Custody
