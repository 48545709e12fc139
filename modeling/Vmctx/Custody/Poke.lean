import Mathlib.Data.List.Nodup
import Vmctx.Custody.Recall
/-!
# Guarded writes of the monitor

`POKE` writes at most a page of bytes at any address, so it touches one or two pages. It reserves
them one after the other, checks that this side holds them, pins their frames and copies, each in a
section of its own, and then puts the frames and drops the reservations. Everything else may run
between two of these.

Here the kernel runs together with what its calls hold outside it, the frames `get_user_pages`
pinned, and with a history of each call: what it asked, how often each page had been erased when it
was reserved, what the check saw, how often the call copied and what it returned. No step reads the
history to decide anything.
-/

namespace Vmctx.Custody

open Kernel Function

/-- A monitor's request to write memory, `struct vmctx_mem`, with the bytes its buffer holds. -/
structure Mem where
  addr : UInt64
  len : UInt64
  bytes : Nat → UInt8

inductive Admission
  | returns (answer : Except Errno Nat)
  | begins (kind : OpKind)

/-- `vmctx_ctl_mem` writing, and `vmctx_poke_guarded` up to its first section. The request or its
bytes may be unreadable, the buffer may not be allocated and the target may have no memory. -/
def ctlMem (request : Option Mem) (nomem copied : Bool) (mm : Option Nat) : Admission :=
  match request with
  | none => .returns (.error .EFAULT)
  | some m =>
    let len := min m.len.toNat 4096
    if len = 0 then .returns (.ok 0)
    else if nomem then .returns (.error .ENOMEM)
    else if copied = false then .returns (.error .EFAULT)
    else if len > 2 ^ 64 - 1 - m.addr.toNat then .returns (.error .EINVAL)
    else match mm with
      | none => .returns (.error .ESRCH)
      | some mm => .begins (.poke mm m.addr.toNat len m.bytes)

def OpKind.Sized : OpKind → Prop
  | .poke _ addr len _ => 0 < len ∧ len ≤ 4096 ∧ addr + len < 2 ^ 64
  | _ => True

/-- A request that returns at once returns an error, or zero for no bytes; one that goes on writes
at most a page. -/
theorem ctlMem_spec (request : Option Mem) (nomem copied : Bool) (mm : Option Nat) :
    match ctlMem request nomem copied mm with
    | .returns (.ok n) => n = 0 ∧ ∃ m, request = some m ∧ m.len = 0
    | .returns (.error _) => True
    | .begins kind => kind.Sized ∧ ∃ m space, request = some m ∧ mm = some space ∧
      kind = .poke space m.addr.toNat (min m.len.toNat 4096) m.bytes := by
  cases request with
  | none => trivial
  | some m =>
    simp only [ctlMem]
    by_cases empty : min m.len.toNat 4096 = 0
    · have none : m.len.toNat = 0 := by omega
      have zero : m.len = 0 := UInt64.toNat_inj.mp none
      rw [if_pos empty]
      exact ⟨rfl, m, rfl, zero⟩
    rw [if_neg empty]
    cases nomem with
    | true => trivial
    | false =>
      cases copied with
      | false => trivial
      | true =>
        simp only [Bool.false_eq_true, Bool.true_eq_false, if_false]
        by_cases long : min m.len.toNat 4096 > 2 ^ 64 - 1 - m.addr.toNat
        · rw [if_pos long]
          trivial
        · rw [if_neg long]
          cases mm with
          | none => trivial
          | some space =>
            have inside : m.addr.toNat < 2 ^ 64 := m.addr.toNat_lt
            have sized : 0 < min m.len.toNat 4096 ∧ min m.len.toNat 4096 ≤ 4096 ∧
                m.addr.toNat + min m.len.toNat 4096 < 2 ^ 64 := by omega
            exact ⟨sized, m, space, rfl, rfl, rfl⟩

def OpKind.size : OpKind → Nat
  | .poke _ _ len _ => len
  | _ => 4096

/-- A `POKE`, from its request to its return. -/
structure Call where
  asked : Option OpKind
  births : Page → Nat
  seen : Page → PgState
  pins : List Nat
  copies : Nat
  returned : Option (Except Errno Nat)

def Call.unused : Call := ⟨none, fun _ => 0, fun _ => .none, [], 0, none⟩

def Call.reserves (c : Call) (k k' : Kernel) : Call :=
  { c with births := fun p => if (k.pages p).entry.isNone && (k'.pages p).entry.isSome then
      (k.pages p).erasures else c.births p }

def Call.writes (c : Call) (reply : Reply) : Call :=
  match reply with
  | .wrote => { c with copies := c.copies + 1 }
  | _ => c

def LocalOp.returns (op : LocalOp) : Except Errno Nat :=
  match op.pc with
  | .ending (some errno) => .error errno
  | _ => .ok op.kind.size

/-- The kernel and the `POKE` calls on it. -/
structure Poking where
  kernel : Kernel
  calls : Nat → Call

namespace Poking

def start (k : Kernel) : Poking := ⟨k, fun _ => .unused⟩

def setCall (w : Poking) (id : Nat) (c : Call) : Poking :=
  { w with calls := update w.calls id c }

def noted (w : Poking) (k' : Kernel) (reply : Reply) : Act → Nat → Call
  | .opBegin kind => update w.calls (w.kernel.opNext + 1)
    { Call.unused with asked := some kind }
  | .opReserve id _ => update w.calls id ((w.calls id).reserves w.kernel k')
  | .opCheck id _ => update w.calls id { w.calls id with
      seen := fun p => (w.kernel.pages p).record.state }
  | .opWrite id _ => update w.calls id ((w.calls id).writes reply)
  | .opEnd id => if (k'.ops id).isNone then update w.calls id { w.calls id with
      returned := (w.kernel.ops id).map LocalOp.returns }
    else w.calls
  | _ => w.calls

def run (w : Poking) (a : Act) : Option Poking :=
  (step w.kernel a).map fun r => ⟨r.1, w.noted r.1 r.2 a⟩

/-- The sections that run as they are: a call of `POKE` begins with its request, pinning goes
through `get_user_pages`, and a call puts its frames before it drops a reservation. -/
def allows (w : Poking) : Act → Bool
  | .opBegin (.poke ..) => false
  | .opPin .. => false
  | .opEnd id => (w.calls id).pins.isEmpty
  | _ => true

inductive Label
  | poke (request : Option Mem) (nomem copied : Bool) (mm : Option Nat)
  | gup (id : Nat) (frames : Except Errno (List Nat))
  | put (id : Nat)
  | section_ (a : Act)

/-- What `get_user_pages` tells its caller when it should pin `count` frames: pinning fewer is an
error. -/
def gupResult (count : Nat) : Except Errno (List Nat) → Except Errno (List Nat)
  | .error errno => .error errno
  | .ok frames => if frames.length = count then .ok frames else .error .EFAULT

def gupPins : Except Errno (List Nat) → List Nat
  | .error _ => []
  | .ok frames => frames

/-- A step of a call of `vmctx_poke_guarded`, or of anything else. -/
def next (w : Poking) : Label → Option Poking
  | .poke request nomem copied mm => match ctlMem request nomem copied mm with
    | .returns _ => some w
    | .begins kind => w.run (.opBegin kind)
  | .gup id frames => (w.kernel.ops id).bind fun op =>
    if (gupPins frames).length ≤ op.kind.pages.length then
      (w.run (.opPin id (gupResult op.kind.pages.length frames))).map fun w' =>
        w'.setCall id { w'.calls id with pins := gupPins frames }
    else none
  | .put id => match w.kernel.ops id, (w.calls id).pins with
    | some ⟨_, _, _, .ending _⟩, _ :: rest => some (w.setCall id { w.calls id with pins := rest })
    | _, _ => none
  | .section_ a => if w.allows a then w.run a else none

abbrev Step : Poking → Label → Poking → Prop := System.Computed next

/-- No page goes from the page tables between the pinning and the copy of an operation that has it
reserved, unless the reservation is cancelled. A discard whose note came before the reservation may
break this. -/
def unzapped (w : Poking) : Label → Bool
  | .section_ (.zap mm first last) => (List.range' first (last + 1 - first)).all fun idx =>
    match (w.kernel.pages ⟨mm, idx⟩).entry with
    | some ⟨.guard id, false⟩ => match w.kernel.ops id with
      | some ⟨_, _, _, .pinned _⟩ => false
      | _ => true
    | _ => true
  | _ => true

end Poking

end Vmctx.Custody
