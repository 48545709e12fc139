import Vmctx.Machine
/-!
# The slots of the address spaces

The kernel keeps a slot for every address space that has a context: its page record, its
reservations, its journal and its identity. A context notes its address space and forgets it; page
guards, tickets and quiesce leases pin the slot and release it by the same call. A slot is found by
the address of the `mm_struct`, and that address may be used again for another one: an `Mm` here is
the address with the number of its use, and the code compares addresses only.

Every section under `vmctx_mm_lock` is a step. `vmctx_quiesce_end` is two: the lease is unlinked,
and then its pin is released. `vmctx_mm_refcount` has its default.

A slot's reference count is an `int` of the source, and `vmctx_mm_note` and `vmctx_recall_begin`
raise it without a check; identities are `u64`. Here they are numbers, so what is said of them holds
of the source in the runs in which they stay in range.
-/

namespace Vmctx.Slots

/-- A use of an `mm_struct` address. -/
structure Mm where
  address : Nat
  use : Nat
  deriving DecidableEq, Repr

/-- `struct vmctx_mm_slot`. -/
structure Slot where
  mm : Option Nat
  n : Nat
  running : Nat
  paused : Nat
  traceId : Nat
  deriving DecidableEq, Repr

def Slot.free : Slot := ⟨none, 0, 0, 0, 0⟩

/-- A context, and whether its slot counts it. -/
structure Context where
  mm : Mm
  counted : Bool
  running : Bool
  deriving DecidableEq, Repr

/-- `struct vmctx_quiesce_lease`. -/
structure Lease where
  token : Nat
  owner : Nat
  mm : Mm
  slot : Nat
  deriving DecidableEq, Repr

/-- A `BEGIN` that waits for running tasks. -/
structure Waiting where
  token : Nat
  owner : Nat
  observed : Bool
  deriving DecidableEq, Repr

/-- A lease that was released, and by whom. -/
structure Released where
  token : Nat
  owner : Nat
  caller : Nat
  deriving DecidableEq, Repr

/-- The slots, and what holds them. -/
structure Table where
  slots : List Slot
  traceNext : Nat
  quiesceNext : Nat
  contexts : List Context
  pins : List Mm
  leases : List Lease
  waiting : List Waiting
  released : List Released
  named : List (Nat × Mm)
  deriving DecidableEq, Repr

def mmSlots : Nat := 256

def intMax : Nat := 2 ^ 31 - 1

def uintMax : Nat := 2 ^ 32 - 1

def u64Max : Nat := 2 ^ 64 - 1

namespace Table

def new : Table := ⟨List.replicate mmSlots .free, 0, 0, [], [], [], [], [], []⟩

/-- `vmctx_execution_slot`, and the search of the other functions. -/
def slotOf (t : Table) (address : Nat) : Option Nat := t.slots.findIdx? (·.mm = some address)

def modify (t : Table) (i : Nat) (f : Slot → Slot) : Table := { t with slots := t.slots.modify i f }

/-- `vmctx_mm_note`: adoption, fork, and the second part of an exec. -/
def note (t : Table) (mm : Mm) : Table :=
  match t.slotOf mm.address with
  | some i =>
    { t.modify i (fun s => { s with n := s.n + 1 }) with
      contexts := ⟨mm, true, false⟩ :: t.contexts
      named := ((t.slots[i]?.map (·.traceId)).getD 0, mm) :: t.named }
  | none =>
    match t.slots.findIdx? (·.mm = none) with
    | some i =>
      { t.modify i (fun _ => ⟨some mm.address, 1, 0, 0, t.traceNext + 1⟩) with
        traceNext := t.traceNext + 1
        contexts := ⟨mm, true, false⟩ :: t.contexts
        named := (t.traceNext + 1, mm) :: t.named }
    | none =>
      -- Nowhere to put it: the context goes on without.
      { t with contexts := ⟨mm, false, false⟩ :: t.contexts }

/-- `vmctx_mm_forget`. -/
def forget (t : Table) (address : Nat) : Table :=
  match t.slotOf address with
  | none => t
  | some i => t.modify i fun s => if 0 < s.n - 1 then { s with n := s.n - 1 } else .free

/-- A context ends, or leaves its address space in an exec. It does not run then. -/
def forgetContext (t : Table) (i : Nat) : Option Table :=
  t.contexts[i]?.bind fun c =>
    if c.running then none
    else some { t.forget c.mm.address with contexts := t.contexts.eraseIdx i }

/-- Take a reference of the slot of an address space, if there is one. -/
def hold (t : Table) (mm : Mm) (checked : Bool) : Option Table :=
  (t.slotOf mm.address).bind fun i =>
    match t.slots[i]? with
    | none => none
    | some s =>
      if checked = true ∧ s.n = intMax then none
      else some
        { t.modify i (fun s => { s with n := s.n + 1 }) with
          pins := mm :: t.pins
          named := (s.traceId, mm) :: t.named }

/-- `vmctx_page_guard_acquire`, `vmctx_memory_hold` and `vmctx_transfer_begin`, as far as they pin a
slot. -/
def pin (t : Table) (mm : Mm) : Option Table := t.hold mm true

/-- `vmctx_recall_begin`, as far as it pins a slot: it does not check the count. -/
def recallBegin (t : Table) (mm : Mm) : Option Table := t.hold mm false

/-- The release of a pin: `vmctx_page_guard_end` and the like. -/
def unpin (t : Table) (i : Nat) : Option Table :=
  t.pins[i]?.map fun mm => { t.forget mm.address with pins := t.pins.eraseIdx i }

/-- `vmctx_execution_enter` of a context; none while it waits or fails. -/
def enter (t : Table) (i : Nat) : Option Table :=
  t.contexts[i]?.bind fun c =>
    (t.slotOf c.mm.address).bind fun j =>
      match t.slots[j]? with
      | none => none
      | some s =>
        if c.running ∨ s.paused ≠ 0 then none
        else some
          { t.modify j (fun s => { s with running := s.running + 1 }) with
            contexts := t.contexts.set i { c with running := true } }

/-- `vmctx_execution_leave`. A task whose slot is gone is warned about. -/
def leave (t : Table) (i : Nat) : Option Table :=
  t.contexts[i]?.bind fun c =>
    if c.running = false then none
    else
      let after := { t with contexts := t.contexts.set i { c with running := false } }
      match t.slotOf c.mm.address with
      | none => some after
      | some j => some (after.modify j fun s => { s with running := s.running - 1 })

/-- `vmctx_ctl_quiesce`'s `BEGIN` up to its wait, for a thread that is not in one; none when it
fails. -/
def begin (t : Table) (owner : Nat) (mm : Mm) (mmId : Nat) : Option Table :=
  if t.waiting.any (·.owner = owner) then none
  else
    (t.slotOf mm.address).bind fun i =>
      match t.slots[i]? with
      | none => none
      | some s =>
        if mmId ≠ 0 ∧ mmId ≠ s.traceId then none
        else if s.paused = uintMax ∨ s.n = intMax ∨ t.quiesceNext = u64Max then none
        else
          let token := t.quiesceNext + 1
          some
            { t.modify i (fun s => { s with n := s.n + 1, paused := s.paused + 1 }) with
              quiesceNext := token
              leases := t.leases ++ [⟨token, owner, mm, i⟩]
              waiting := ⟨token, owner, false⟩ :: t.waiting
              named := (s.traceId, mm) :: t.named }

/-- The first section of `vmctx_quiesce_end`: the lease is unlinked, and its pin remains. -/
def unlink (t : Table) (token owner : Nat) : Option Table :=
  (t.leases.find? fun l => l.owner = owner ∧ (token = 0 ∨ l.token = token)).map fun l =>
    { t.modify l.slot (fun s => { s with paused := s.paused - 1 }) with
      leases := t.leases.erase l
      pins := l.mm :: t.pins
      released := ⟨l.token, l.owner, owner⟩ :: t.released }

/-- A waiting `BEGIN` finds that no task runs. -/
def observe (t : Table) (i : Nat) : Option Table :=
  t.waiting[i]?.bind fun w =>
    (t.leases.find? (·.token = w.token)).bind fun l =>
      (t.slots[l.slot]?).bind fun s =>
        if s.running ≠ 0 then none
        else some { t with waiting := t.waiting.set i { w with observed := true } }

/-- `BEGIN` returns its token. -/
def succeed (t : Table) (i : Nat) : Option Table :=
  match t.waiting[i]? with
  | some ⟨_, _, true⟩ => some { t with waiting := t.waiting.eraseIdx i }
  | _ => none

/-- `BEGIN` times out, is killed or cannot return its token, and ends its lease. -/
def fail (t : Table) (i : Nat) : Option Table :=
  t.waiting[i]?.bind fun w =>
    { t with waiting := t.waiting.eraseIdx i }.unlink w.token w.owner

/-- `vmctx_ctl_quiesce`'s `END`. -/
def finish (t : Table) (token owner : Nat) : Option Table :=
  if token = 0 ∨ t.waiting.any (·.owner = owner) then none else t.unlink token owner

/-- `vmctx_quiesce_owner_exit`, for one of the leases of an exiting thread. -/
def exit (t : Table) (owner : Nat) : Option Table :=
  if t.waiting.any (·.owner = owner) then none else t.unlink 0 owner

end Table

inductive Act
  | note (mm : Mm)
  | forget (i : Nat)
  | pin (mm : Mm)
  | recallBegin (mm : Mm)
  | unpin (i : Nat)
  | enter (i : Nat)
  | leave (i : Nat)
  | begin (owner : Nat) (mm : Mm) (mmId : Nat)
  | observe (i : Nat)
  | succeed (i : Nat)
  | fail (i : Nat)
  | finish (token owner : Nat)
  | exit (owner : Nat)
  deriving DecidableEq, Repr

/-- A call of the kernel on its table of slots. -/
def Table.next (t : Table) : Act → Option Table
  | .note mm => some (t.note mm)
  | .forget i => t.forgetContext i
  | .pin mm => t.pin mm
  | .recallBegin mm => t.recallBegin mm
  | .unpin i => t.unpin i
  | .enter i => t.enter i
  | .leave i => t.leave i
  | .begin owner mm mmId => t.begin owner mm mmId
  | .observe i => t.observe i
  | .succeed i => t.succeed i
  | .fail i => t.fail i
  | .finish token owner => t.finish token owner
  | .exit owner => t.exit owner

end Vmctx.Slots
