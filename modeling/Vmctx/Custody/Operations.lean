import Vmctx.Custody.State
/-!
# Faults, recall tickets and local page operations

Each definition is one section under the lock, named after the function it is part of. A section
that returns early changes nothing. What the page tables, the allocator or user memory decide is an
argument: whether an allocation failed, whether a mapping exists, which frame a page was pinned to.
`none` means that the section cannot run now, because the thread is not at it.
-/

namespace Vmctx.Custody

open Function

namespace Kernel

abbrev Result := Option (Kernel × Reply)

/-- Note that a range is unmapped, discarded or denied: cancel its reservations and drop its
records, `vmctx_pgrec_erase_range`. -/
def pgrecEraseRange (k : Kernel) (mm first last : Nat) : Result :=
  some ({ k with pages := fun p =>
    if p.mm = mm ∧ first ≤ p.idx ∧ p.idx ≤ last then (k.pages p).erase else k.pages p }, .ok)

/-- The frames of a range go from the page tables. `munmap` does this under the lock that it holds
since before its note; `MADV_DONTNEED` holds it for reading only, so whatever does that too may run
between its note and this. -/
def zap (k : Kernel) (mm first last : Nat) : Result :=
  some ({ k with pages := fun p =>
    { k.pages p with
      frame := if p.mm = mm ∧ first ≤ p.idx ∧ p.idx ≤ last then none
        else (k.pages p).frame } }, .ok)

/-- A fault, or a lookup of the pages, maps a frame where there is none. -/
def populate (k : Kernel) (p : Page) (frame : Nat) : Result :=
  if (k.pages p).frame = none then
    some (k.setPage p { k.pages p with frame := some frame }, .ok)
  else none

/-- The program, or a device, stores into a frame. -/
def store (k : Kernel) (frame : Nat) (bytes : PageBytes) : Result :=
  some ({ k with memory := update k.memory frame bytes }, .ok)

/-- An append of `vmctx_access_commit` fails and poisons the journal of its address space. -/
def accessFail (k : Kernel) (mm : Nat) (errno : Errno) : Result :=
  some ({ k with accessError := update k.accessError mm (some errno) }, .ok)

def seenState (s : PageState) : PgState := if s.entry.isSome then .claim else s.record.state

/-- A fault claims its page, `vmctx_pgrec_claim`. It waits for a reservation or a transition in
flight, or, if it may not wait any longer, is reported without a claim. -/
def pgrecClaim (k : Kernel) (task : Nat) (p : Page) (mayWait nomem : Bool) : Result :=
  let s := k.pages p
  if (k.faults task).isSome then none
  else
    let st := seenState s
    if st = .claim ∨ st = .transit then
      if mayWait then some (k, .waits)
      else some (k.setFault task (some ⟨p, false, st, 0⟩), .ok)
    else if s.record = .absent ∧ nomem = true then
      some (k.setFault task (some ⟨p, false, st, 0⟩), .ok)
    else
      let k := k.setPage p (s.write ⟨.claim, 0, s.record.gen⟩ (.fault (k.episodes + 1)))
      some ({ k with episodes := k.episodes + 1 }.setFault task
        (some ⟨p, true, st, k.episodes + 1⟩), .ok)

def landTo (fault : Fault) : Action → PgState
  | .done => .home
  | .self => .home
  | .kill => fault.prior
  | .retry => fault.prior

/-- A fault settles its claim with the monitor's answer, `vmctx_pgrec_land`. -/
def pgrecLand (k : Kernel) (task : Nat) (action : Action) : Result :=
  match k.faults task with
  | none => none
  | some fault =>
    let s := k.pages fault.page
    let k := k.setFault task none
    if fault.claimed = false ∨ s.entry.isSome ∨ s.record.state ≠ .claim then some (k, .ok)
    else some (k.setPage fault.page
      (s.write ⟨landTo fault action, 0, s.record.gen⟩ (.fault fault.episode)), .ok)

/-- `vmctx_recall_begin`: claim a remote page under a new ticket. -/
def recallBegin (k : Kernel) (who : Nat) (p : Page) (vma nomem : Bool) : Result :=
  let s := k.pages p
  if s.entry.isSome then some (k, .failed .EAGAIN)
  else if s.record.inFlight then some (k, .failed .EAGAIN)
  else if s.record.state ≠ .remote then some (k, .one)
  else if vma = false then some (k, .failed .ESTALE)
  else if k.recallNext = 2 ^ 64 - 1 then some (k, .failed .EOVERFLOW)
  else
    let id := k.recallNext + 1
    let k := { k with recallNext := id }
    if nomem then some (k, .failed .ENOMEM)
    else
      let claim : PgRec := ⟨.claim, 0, s.record.gen⟩
      let k := k.setPage p ((s.reserve (.recallTicket id)).write claim (.recallTicket id))
      some ((k.pin p.mm).setRecall id (some ⟨p, who, s.record, .idle, s.erasures⟩), .ticket id)

/-- The page of a recall ticket after it is unlinked, `vmctx_recall_unlink`. -/
def recallUnlinkPage (s : PageState) (id : Nat) (prior : PgRec) (landed : Bool) (gen : UInt32) :
    PageState :=
  if s.cancelled (.recallTicket id) = false ∧ s.record.state = .claim then
    (s.write (if landed then ⟨.home, 0, gen⟩ else prior) (.recallTicket id)).release
  else s.release

/-- `vmctx_recall_unlink`. -/
def recallUnlink (k : Kernel) (id : Nat) (t : RecallTicket) (landed : Bool) (gen : UInt32) :
    Kernel :=
  ((k.setPage t.page (recallUnlinkPage (k.pages t.page) id t.prior landed gen)).setRecall id
    none).unpin t.page.mm

inductive RecallOp
  | commit (gen : UInt32) (bytes : PageBytes)
  | cancel

/-- Find the caller's recall ticket for a `COMMIT` or a `CANCEL`, `vmctx_recall_finish`. -/
def recallFinish (k : Kernel) (who id idx : Nat) (op : RecallOp) : Result :=
  if id = 0 then some (k, .failed .EINVAL)
  else match k.recalls id with
    | none => some (k, .failed .ENOENT)
    | some t =>
      if t.owner ≠ who then some (k, .failed .ENOENT)
      else if t.page.idx ≠ idx then some (k, .failed .EINVAL)
      else match t.pc, op with
        | .idle, .commit gen bytes =>
          some (k.setRecall id (some { t with pc := .committing gen bytes }), .ok)
        | .idle, .cancel => some (k.setRecall id (some { t with pc := .consuming none }), .ok)
        | _, _ => none

/-- Pin the page of a `COMMIT`. Copying the bytes in, taking the map lock or pinning may fail. -/
def recallPin (k : Kernel) (id : Nat) (gup : Except Errno Nat) : Result :=
  match k.recalls id with
  | none => none
  | some t =>
    match t.pc with
    | .committing gen bytes =>
      let s := k.pages t.page
      match gup with
      | .error errno => some (k.setRecall id (some { t with pc := .consuming (some errno) }), .ok)
      | .ok frame =>
        if s.cancelled (.recallTicket id) then
          some (k.setRecall id (some { t with pc := .consuming (some .ESTALE) }), .ok)
        else
          some ((k.setPage t.page { s with frame := some frame }).setRecall id
            (some { t with pc := .pinned gen bytes frame }), .ok)
    | _ => none

def recallLand (k : Kernel) (id : Nat) : Result :=
  match k.recalls id with
  | none => none
  | some t =>
    match t.pc with
    | .pinned gen bytes frame =>
      let s := k.pages t.page
      if s.cancelled (.recallTicket id) then some (k.recallUnlink id t false gen, .failed .ESTALE)
      else if s.record.state ≠ .claim then
        some (k.recallUnlink id t false gen, .failed .EPROTO)
      else
        some ({ k with memory := update k.memory frame bytes }.recallUnlink id t true gen,
          .wrote)
    | _ => none

def recallConsume (k : Kernel) (id : Nat) : Result :=
  match k.recalls id with
  | none => none
  | some t =>
    match t.pc with
    | .consuming result =>
      let reply := if (k.pages t.page).cancelled (.recallTicket id) then .failed .ESTALE
        else match result with
          | none => .ok
          | some errno => .failed errno
      some (k.recallUnlink id t false 0, reply)
    | _ => none

/-- An exiting thread drops one of its recall tickets, `vmctx_recall_owner_exit`. -/
def recallExit (k : Kernel) (who id : Nat) : Result :=
  match k.recalls id with
  | none => none
  | some t =>
    match t.pc with
    | .idle => if t.owner = who then some (k.recallUnlink id t false 0, .ok) else none
    | _ => none

/-- A local operation, as `vmctx_ctl_land`, begins with its pages still to be reserved. -/
def opBegin (k : Kernel) (kind : OpKind) : Result :=
  let id := k.opNext + 1
  some ({ k with opNext := id }.setOp id (some ⟨kind, kind.pages, [], .reserving⟩), .ticket id)

def opFail (k : Kernel) (id : Nat) (op : LocalOp) (errno : Errno) : Result :=
  some (k.setOp id (some { op with pc := .ending (some errno) }), .ok)

/-- Reserve the next page of an operation, `vmctx_page_guard_begin`. -/
def opReserve (k : Kernel) (id : Nat) (nomem : Bool) : Result :=
  match k.ops id with
  | some ⟨kind, p :: rest, held, .reserving⟩ =>
    let op : LocalOp := ⟨kind, p :: rest, held, .reserving⟩
    let s := k.pages p
    if s.entry.isSome then k.opFail id op .EBUSY
    else if k.pins p.mm = 2 ^ 31 - 1 then k.opFail id op .EOVERFLOW
    else if nomem then k.opFail id op .ENOMEM
    else some (((k.setPage p (s.reserve (.guard id))).pin p.mm).setOp id
      (some ⟨kind, rest, p :: held, .reserving⟩), .ok)
  | _ => none

/-- Why an operation must not write its pages. `LAND` refuses a page already mapped when asked to,
`POKE` a page this side does not hold, and `TAKE` writes nothing. -/
def opRefusal (k : Kernel) (op : LocalOp) : Option (Option Errno) :=
  match op.kind with
  | .land p _ ifAbsent _ =>
    if ifAbsent = true ∧ (k.pages p).frame.isSome then some (some .EEXIST) else none
  | .poke .. =>
    if op.held.all fun p => (k.pages p).record.state == .home || (k.pages p).record.state == .none
    then none else some (some .EAGAIN)
  | .take _ => some none

/-- The kernel after the page of a `TAKE` went, if there was one to take. -/
def opTakes (k : Kernel) (kind : OpKind) (taken : Bool) : Kernel :=
  { k with pages := fun p =>
    { k.pages p with
      frame := if taken = true ∧ kind.takes p = true then none else (k.pages p).frame } }

/-- Check the reserved pages of an operation. `TAKE` does its work here. -/
def opCheck (k : Kernel) (id : Nat) (taken : Bool) : Result :=
  match k.ops id with
  | some ⟨kind, [], held, .reserving⟩ =>
    let op : LocalOp := ⟨kind, [], held, .reserving⟩
    let k := k.opTakes kind taken
    match k.opRefusal op with
    | some result => some (k.setOp id (some { op with pc := .ending result }), .ok)
    | none => some (k.setOp id (some { op with pc := .checked }), .ok)
  | _ => none

def opPin (k : Kernel) (id : Nat) (gup : Except Errno (List Nat)) : Result :=
  match k.ops id with
  | some ⟨kind, [], held, .checked⟩ =>
    let op : LocalOp := ⟨kind, [], held, .checked⟩
    match gup with
    | .error errno => k.opFail id op errno
    | .ok frames =>
      let mapped := kind.pages.zip frames
      some ({ k with pages := fun p =>
          match mapped.lookup p with
          | some frame => { k.pages p with frame := some frame }
          | none => k.pages p }.setOp id (some { op with pc := .pinned frames }), .ok)
  | _ => none

def opGen : OpKind → UInt32 → UInt32
  | .land _ gen _ _, _ => gen
  | _, old => old

/-- Write the pages of an operation and record them as held here, unless one was erased. -/
def opWrite (k : Kernel) (id : Nat) (nomem : List Page) : Result :=
  match k.ops id with
  | some ⟨kind, [], held, .pinned frames⟩ =>
    let op : LocalOp := ⟨kind, [], held, .pinned frames⟩
    if held.any fun p => (k.pages p).cancelled (.guard id) then k.opFail id op .ESTALE
    else
      let memory := (kind.pages.zip frames).foldl
        (fun memory page => update memory page.2 (kind.patch page.1 (memory page.2)))
        k.memory
      let pages := fun p =>
        let s := k.pages p
        if p ∈ held then
          s.store ⟨.home, 0, opGen kind s.record.gen⟩ (.guard id) (nomem.contains p)
        else s
      some ({ k with memory := memory, pages := pages }.setOp id
        (some { op with pc := .ending none }), .wrote)
  | _ => none

/-- Release the pages of an operation one by one, then end it, `vmctx_page_guard_end`. -/
def opEnd (k : Kernel) (id : Nat) : Result :=
  match k.ops id with
  | some ⟨kind, todo, p :: rest, .ending result⟩ =>
    some (((k.setPage p (k.pages p).release).unpin p.mm).setOp id
      (some ⟨kind, todo, rest, .ending result⟩), .ok)
  | some ⟨_, _, [], .ending result⟩ =>
    some (k.setOp id none, match result with
      | none => .ok
      | some errno => .failed errno)
  | _ => none

/-- `vmctx_ctl_pgset`. -/
def ctlPgset (k : Kernel) (p : Page) (state : PgState) (gen : UInt32) (nomem : Bool) : Result :=
  let s := k.pages p
  if s.entry.isSome then some (k, .failed .EBUSY)
  else if state = .claim ∧ s.record.inFlight then some (k, .failed .EAGAIN)
  else some (k.setPage p (s.store ⟨state, 0, gen⟩ .pgset nomem), .ok)

/-- `vmctx_ctl_pgack`. -/
def ctlPgack (k : Kernel) (p : Page) (sum : UInt16) : Result :=
  let s := k.pages p
  match k.accessError p.mm with
  | some errno => some (k, .failed errno)
  | none =>
    if s.entry.isSome then some (k, .failed .EBUSY)
    else if s.record.state = .transit ∧ s.record.sum = sum then
      some (k.setPage p (s.write ⟨.remote, 0, s.record.gen⟩ .pgack), .one)
    else some (k, .ok)

end Kernel

end Vmctx.Custody
