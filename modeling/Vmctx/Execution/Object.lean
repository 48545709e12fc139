import Vmctx.Machine
/-!
# Replacing the object of a native context

A program that replaces its image gets a new object behind its memory. The kernel commits the new
object together with the next epoch, and reports both; the report may be lost after the commit. The
monitor then asks again for the same epoch and object, which the kernel recognises, until it knows.
Around each attempt the context may die, be busy, or be interrupted.
-/

namespace Vmctx.Execution

def objectAbi : UInt32 := 1

def objectSize : UInt32 := 56

def objectInfo : UInt32 := 1

def objectReplace : UInt32 := 2

def objectFeatures : UInt32 := 3

/-- `struct vmctx_object`. -/
structure VmctxObject where
  version : UInt32
  size : UInt32
  op : UInt32
  features : UInt32
  expectedEpoch : UInt64
  epoch : UInt64
  backingFd : Int
  reserved : UInt32
  device : UInt64
  inode : UInt64
  deriving DecidableEq, Repr

structure File where
  mapping : Nat
  shmem : Bool
  readWrite : Bool
  deriving DecidableEq, Repr

structure Inode where
  major : UInt64
  minor : UInt64
  ino : UInt64
  deriving DecidableEq, Repr

structure Files where
  file : Int → Option File
  stat : Int → Except Errno Inode
  inode : Nat → Inode

def encodeDev (i : Inode) : UInt64 :=
  let low : UInt64 := 0xff
  (i.minor &&& low) ||| (i.major <<< 8) ||| ((i.minor &&& ~~~low) <<< 12)

/-- What a replacement reads of a context. -/
structure NativeContext where
  dead : Bool
  signalled : Bool
  usercode : Bool
  service : Bool
  backing : Option Nat
  shared : Option Nat
  epoch : UInt64
  maps : List (Option Nat)
  commits : Nat
  deriving DecidableEq, Repr

inductive Refusal
  | denied
  | inactive
  | contended
  | interrupted
  deriving DecidableEq, Repr

def Refusal.errno : Refusal → Errno
  | denied => .EPERM
  | inactive => .EAGAIN
  | contended => .EBUSY
  | interrupted => .EINTR

/-- The conditions of `vmctx_object_stopped` besides those of a dead context. -/
inductive Stop
  | busy
  | running
  | stopped
  deriving DecidableEq, Repr

structure Attempt where
  dies : Bool
  refused : Option Refusal
  copyInFails : Bool
  copyOutFails : Bool
  stop : Stop
  exits : Bool
  lockKilled : Bool
  mmUsers : Nat
  munmap : Nat → Option Errno

namespace NativeContext

/-- The loop that removes the mappings of the old objects: those left, whether some were removed,
and the error. -/
def unmap (drop : Option Nat → Bool) (munmap : Nat → Option Errno) :
    Nat → List (Option Nat) → List (Option Nat) × Bool × Option Errno
  | _, [] => ([], false, none)
  | i, map :: maps =>
    if drop map then
      match munmap i with
      | some errno => (map :: maps, false, some errno)
      | none =>
        let (left, _, failed) := unmap drop munmap (i + 1) maps
        (left, true, failed)
    else
      let (left, changed, failed) := unmap drop munmap (i + 1) maps
      (map :: left, changed, failed)

def report (files : Files) (k : NativeContext) (q : VmctxObject) (copyOutFails : Bool) :
    NativeContext × Except Errno VmctxObject :=
  let reply := { q with
    features := objectFeatures, expectedEpoch := 0, epoch := k.epoch, backingFd := -1,
    device := match k.backing with
      | none => q.device
      | some mapping => encodeDev (files.inode mapping),
    inode := match k.backing with
      | none => q.inode
      | some mapping => (files.inode mapping).ino }
  (k, if copyOutFails then .error .EFAULT else .ok reply)

def commit (files : Files) (k : NativeContext) (a : Attempt) (q : VmctxObject) (next : File) :
    NativeContext × Except Errno VmctxObject :=
  let drop (map : Option Nat) := map ≠ none ∧ (map = k.backing ∨ k.shared ≠ none ∧ map = k.shared)
  let (maps, changed, failed) := unmap (drop ·) a.munmap 0 k.maps
  match failed with
  | some errno => ({ k with maps, signalled := k.signalled || changed }, .error errno)
  | none =>
    report files
      { k with maps, backing := some next.mapping, epoch := q.epoch, commits := k.commits + 1 } q
      a.copyOutFails

def replace (files : Files) (k : NativeContext) (a : Attempt) (q : VmctxObject) :
    NativeContext × Except Errno VmctxObject :=
  if q.expectedEpoch = 0 ∨ q.expectedEpoch = 0xffffffffffffffff ∨ q.epoch ≠ q.expectedEpoch + 1 ∨
      q.backingFd < 0 then
    (k, .error .EINVAL)
  else
    match files.file q.backingFd with
    | none => (k, .error .EBADF)
    | some next =>
      if ¬next.shmem ∨ ¬next.readWrite then (k, .error .EINVAL)
      else if q.epoch = k.epoch then
        if k.backing = some next.mapping then report files k q a.copyOutFails
        else (k, .error .ESTALE)
      else if q.expectedEpoch ≠ k.epoch then (k, .error .ESTALE)
      else if k.dead then (k, .error .ESRCH)
      else
        match a.stop with
        | .busy => (k, .error .EBUSY)
        | .running => (k, .error .EAGAIN)
        | .stopped =>
          if k.backing = none ∨ k.backing = some next.mapping ∨ k.shared = some next.mapping then
            (k, .error .EINVAL)
          else if a.exits then ({ k with dead := true }, .error .ESRCH)
          else if a.lockKilled then (k, .error .EINTR)
          else if a.mmUsers ≠ 2 then (k, .error .EBUSY)
          else commit files k a q next

/-- `vmctx_ctl_object`, with `vmctx_object_stopped`. -/
def ctlObject (files : Files) (k : NativeContext) (a : Attempt) (q : VmctxObject) :
    NativeContext × Except Errno VmctxObject :=
  if a.copyInFails then (k, .error .EFAULT)
  else if q.version ≠ objectAbi ∨ q.size ≠ objectSize ∨ q.features ≠ 0 ∨ q.reserved ≠ 0 ∨
      q.device ≠ 0 ∨ q.inode ≠ 0 then
    (k, .error .EINVAL)
  else if ¬k.usercode ∨ k.service then (k, .error .EOPNOTSUPP)
  else if q.op = objectInfo then
    if q.expectedEpoch ≠ 0 ∨ q.epoch ≠ 0 ∨ q.backingFd ≠ -1 then (k, .error .EINVAL)
    else report files k q a.copyOutFails
  else if q.op = objectReplace then replace files k a q
  else (k, .error .EINVAL)

def control (files : Files) (k : NativeContext) (a : Attempt) (q : VmctxObject) :
    NativeContext × Except Errno VmctxObject :=
  let k := { k with dead := k.dead || a.dies }
  if k.dead then (k, .error .ESRCH)
  else
    match a.refused with
    | some refusal => (k, .error refusal.errno)
    | none => ctlObject files k a q

end NativeContext

/-! ## The monitor -/

/-- What `linux_execution_object_replace` returns. -/
inductive Replacement
  | done
  | refused
  | unknown
  deriving DecidableEq, Repr

structure Replaced where
  result : Replacement
  committed : Option UInt64
  native : NativeContext
  replies : List (Except Errno VmctxObject)

/-- `linux_execution_object_identity`. -/
def objectIdentity (files : Files) (fd : Int) : Except Errno (UInt64 × UInt64) :=
  match files.stat fd with
  | .error errno => .error errno
  | .ok i =>
    if i.major > 0xfff ∨ i.minor > 0xfffff then .error .EOVERFLOW else .ok (encodeDev i, i.ino)

def replaceRequest (fd : Int) (expected : UInt64) : VmctxObject where
  version := objectAbi
  size := objectSize
  op := objectReplace
  features := 0
  expectedEpoch := expected
  epoch := expected + 1
  backingFd := fd
  reserved := 0
  device := 0
  inode := 0

def VmctxObject.Malformed (q : VmctxObject) (expected device inode : UInt64) : Prop :=
  q.version ≠ objectAbi ∨ q.size ≠ objectSize ∨ q.op ≠ objectReplace ∨ q.expectedEpoch ≠ 0 ∨
    q.reserved ≠ 0 ∨ q.epoch ≠ expected + 1 ∨ q.backingFd ≠ -1 ∨ q.device ≠ device ∨
    q.inode ≠ inode ∨ q.features &&& objectFeatures ≠ objectFeatures

instance (q : VmctxObject) (expected device inode : UInt64) :
    Decidable (q.Malformed expected device inode) :=
  inferInstanceAs (Decidable (_ ∨ _ ∨ _ ∨ _ ∨ _ ∨ _ ∨ _ ∨ _ ∨ _ ∨ _))

/-- The loop of `linux_execution_object_replace`, over what happens around the attempts that are
left. -/
def replaceLoop (files : Files) (fd : Int) (expected device inode : UInt64)
    (attempts : Nat → Attempt) (left attempt : Nat) (uncertain : Bool) (k : NativeContext)
    (replies : List (Except Errno VmctxObject)) : Replaced :=
  match left with
  | 0 => ⟨.unknown, none, k, replies⟩
  | left + 1 =>
    let (k, reply) := k.control files (attempts attempt) (replaceRequest fd expected)
    let replies := reply :: replies
    match reply with
    | .ok q =>
      if q.Malformed expected device inode then ⟨.unknown, none, k, replies⟩
      else ⟨.done, some q.epoch, k, replies⟩
    | .error errno =>
      if errno = .ESRCH then ⟨.refused, none, k, replies⟩
      else if errno = .EFAULT then
        replaceLoop files fd expected device inode attempts left (attempt + 1) true k replies
      else if ¬uncertain then ⟨.refused, none, k, replies⟩
      else if errno ≠ .EBUSY ∧ errno ≠ .EAGAIN ∧ errno ≠ .EINTR then ⟨.unknown, none, k, replies⟩
      else
        replaceLoop files fd expected device inode attempts left (attempt + 1) uncertain k replies

/-- `linux_execution_object_replace`: at most 64 attempts. -/
def objectReplaceCall (files : Files) (fd : Int) (expected : UInt64) (attempts : Nat → Attempt)
    (k : NativeContext) : Replaced :=
  match objectIdentity files fd with
  | .error _ => ⟨.refused, none, k, []⟩
  | .ok (device, inode) =>
    if expected = 0 ∨ expected = 0xffffffffffffffff then ⟨.refused, none, k, []⟩
    else replaceLoop files fd expected device inode attempts 64 0 false k []

/-- `struct execution_binding`. -/
structure ObjectBinding where
  fd : Int
  epoch : UInt64
  deriving DecidableEq, Repr

/-- `execution_binding_replace`, under the lock of the binding; nothing is returned where the
monitor ends. -/
def bindingReplace (files : Files) (b previous : ObjectBinding) (next : Int)
    (attempts : Nat → Attempt) (k : NativeContext) :
    Option (Bool × ObjectBinding × NativeContext) :=
  if next = previous.fd then some (false, b, k)
  else if b ≠ previous then some (false, b, k)
  else if previous.epoch = 0xffffffffffffffff then some (false, b, k)
  else
    let replaced := objectReplaceCall files next previous.epoch attempts k
    match replaced.result with
    | .unknown => none
    | .refused => some (false, b, replaced.native)
    | .done =>
      if replaced.committed ≠ some (previous.epoch + 1) then none
      else some (true, ⟨next, previous.epoch + 1⟩, replaced.native)

end Vmctx.Execution
