import Vmctx.Identity
import Vmctx.Machine
/-!
# The bindings of an executing context

A context on the executor has a current target, a history of all targets it was ever told of, and a
native binding under a lock of its own. `execution_target_observe` only records; a publication
replaces the native binding and then the current target, under the publication lock; a control runs
a native operation under the read side of the binding's lock.

A call that holds the publication lock and does nothing else is one step. A publication that
replaces is cut at the lock of the binding, at the native replacement and at the stores that follow
it. The calls that have held the lock are kept, newest first, with what they found and left.
-/

namespace Vmctx.Execution

/-- `struct execution_mm`: its identity, and its parent's, zero for none. -/
structure ExecutionMm where
  identity : Nat
  parent : Nat
  deriving DecidableEq, Repr

/-- `struct execution_mm_view`. An address space is given by the number of its record. -/
structure View where
  mm : Nat
  epoch : Nat
  deriving DecidableEq, Repr

/-- `struct execution_target`. -/
structure Target where
  source : MmBinding
  view : View
  deriving DecidableEq, Repr

structure Snapshot where
  current : Target
  history : List Target
  native : View
  deriving DecidableEq, Repr

/-- A call that has held the publication lock. A failure without an error number is a null result
whose `errno` nobody has set. -/
structure Finished where
  publishes : Bool
  source : MmBinding
  before : Snapshot
  after : Snapshot
  result : Except (Option Errno) Target

inductive Stage
  | waiting
  | replacing
  | committed
  | bound
  deriving DecidableEq, Repr

/-- A publication in progress. -/
structure Publication where
  source : MmBinding
  mm : Nat
  found : Option Target
  before : Snapshot
  stage : Stage
  deriving DecidableEq, Repr

structure Reader where
  target : Target
  running : Bool
  deriving DecidableEq, Repr

/-- `struct execution_context_binding`, with the controls under way and the calls that returned. -/
structure Context where
  current : Target
  history : List Target
  binding : View
  installed : View
  publication : Option Publication
  readers : List Reader
  done : List Finished

def uint64Max : Nat := 2 ^ 64 - 1

/-- `execution_target_matches_mm`. -/
def matchesMm (mms : Nat → ExecutionMm) (source : MmBinding) (mm : Option Nat) : Bool :=
  match mm with
  | none => false
  | some mm => source.valid && source.mm == (mms mm).identity && source.parentMm == (mms mm).parent

namespace Context

/-- `execution_target_capture` and `execution_binding_view`. -/
def snapshot (s : Context) : Snapshot := ⟨s.current, s.history, s.binding⟩

/-- `execution_target_find_locked`. -/
def find (s : Context) (source : MmBinding) : Option Target :=
  s.history.find? (·.source.epoch = source.epoch)

/-- The check of a binding against the context and against what was recorded for its epoch. -/
def conflicts (s : Context) (source : MmBinding) (mm : Nat) : Bool :=
  source.context ≠ s.current.source.context ∨
    (s.find source).any fun found => found.source ≠ source ∨ found.view.mm ≠ mm

def finish (s : Context) (publishes : Bool) (source : MmBinding) (before : Snapshot)
    (result : Except (Option Errno) Target) : Context :=
  { s with
    publication := none
    done := ⟨publishes, source, before, s.snapshot, result⟩ :: s.done }

def record (s : Context) (publishes : Bool) (source : MmBinding) (mm : Nat) (memory : Bool) :
    Context :=
  match s.find source with
  | some found => s.finish publishes source s.snapshot (.ok found)
  | none =>
    if memory = false then s.finish publishes source s.snapshot (.error (some .ENOMEM))
    else
      let target : Target := ⟨source, mm, 0⟩
      { s with history := target :: s.history }.finish publishes source s.snapshot (.ok target)

variable (mms : Nat → ExecutionMm)

/-- `execution_target_observe`; `memory` is the outcome of the allocation. -/
def observe (s : Context) (mm : Option Nat) (source : MmBinding) (memory : Bool) :
    Option Context :=
  match mm with
  | none => some s
  | some mm =>
    if matchesMm mms source (some mm) = false then some s
    else if s.publication.isSome then none
    else if s.conflicts source mm then
      some (s.finish false source s.snapshot (.error (some .EPROTO)))
    else some (s.record false source mm memory)

/-- `execution_target_publish`; none while another publication is open. -/
def publish (s : Context) (mm : Option Nat) (source : MmBinding) (memory : Bool) :
    Option Context :=
  match mm with
  | none => some s
  | some mm =>
    if matchesMm mms source (some mm) = false then some s
    else if s.publication.isSome then none
    else if s.conflicts source mm then
      some (s.finish true source s.snapshot (.error (some .EPROTO)))
    else if source.epoch ≤ s.current.source.epoch then some (s.record true source mm memory)
    else if source.mm = s.current.source.mm then
      some (s.finish true source s.snapshot (.error (some .EPROTO)))
    else if memory = false then some (s.finish true source s.snapshot (.error (some .ENOMEM)))
    else if mm = s.current.view.mm then
      some (s.finish true source s.snapshot (.error (some .EINVAL)))
    else
      some { s with publication := some ⟨source, mm, s.find source, s.snapshot, .waiting⟩ }

def goesTo (s : Context) (p : Publication) (stage : Stage) : Context :=
  { s with publication := some { p with stage := stage } }

/-- A replacement fails; `found` is returned when no error is set. -/
def refuse (s : Context) (p : Publication) (errno : Option Errno) : Context :=
  s.finish true p.source p.before (match errno, p.found with
    | some errno, _ => .error (some errno)
    | none, some found => .ok found
    | none, none => .error none)

/-- `execution_binding_replace` gets the lock of the binding, once no control holds it. -/
def lock (s : Context) (p : Publication) : Option Context :=
  if p.stage ≠ .waiting ∨ s.readers ≠ [] then none
  else if s.binding ≠ s.current.view then some (s.refuse p (some .ESTALE))
  else if s.current.view.epoch = uint64Max then some (s.refuse p (some .EOVERFLOW))
  else some (s.goesTo p .replacing)

/-- The native replacement; none when it aborts. A refusal leaves the kernel's binding. -/
def replace (s : Context) (p : Publication) (outcome : Except (Option Errno) Nat) :
    Option Context :=
  if p.stage ≠ .replacing then none
  else
    match outcome with
    | .error errno => some (s.refuse p errno)
    | .ok committed =>
      if committed ≠ s.current.view.epoch + 1 then none
      else some ({ s with installed := ⟨p.mm, committed⟩ }.goesTo p .committed)

def bind (s : Context) (p : Publication) : Option Context :=
  if p.stage ≠ .committed then none
  else some ({ s with binding := ⟨p.mm, s.current.view.epoch + 1⟩ }.goesTo p .bound)

def install (s : Context) (p : Publication) : Option Context :=
  if p.stage ≠ .bound then none
  else
    let target : Target := ⟨p.source, p.mm, s.current.view.epoch + 1⟩
    some ({ s with current := target, history := target :: s.history }.finish
      true p.source p.before (.ok target))

def writing (s : Context) : Bool :=
  s.publication.any fun p => p.stage = .replacing ∨ p.stage = .committed

/-- `execution_target_control` up to the read side of the lock. The target is one of the
context's. -/
def control (s : Context) (target : Option Target) : Option Context :=
  match target with
  | none => some s
  | some target =>
    if target ∉ s.history then none
    else if target.view.epoch = 0 then some s
    else if s.writing then none
    else some { s with readers := ⟨target, false⟩ :: s.readers }

/-- `execution_binding_control` compares; a stale control returns at once. -/
def check (s : Context) (i : Nat) : Option Context :=
  match s.readers[i]? with
  | some ⟨target, false⟩ =>
    if s.binding ≠ target.view then some { s with readers := s.readers.eraseIdx i }
    else some { s with readers := s.readers.set i ⟨target, true⟩ }
  | _ => none

def leave (s : Context) (i : Nat) : Option Context :=
  match s.readers[i]? with
  | some ⟨_, true⟩ => some { s with readers := s.readers.eraseIdx i }
  | _ => none

end Context

inductive Act
  | observe (mm : Option Nat) (source : MmBinding) (memory : Bool)
  | publish (mm : Option Nat) (source : MmBinding) (memory : Bool)
  | lock
  | replace (outcome : Except (Option Errno) Nat)
  | bind
  | install
  | control (target : Option Target)
  | check (i : Nat)
  | leave (i : Nat)

namespace Context

def next (mms : Nat → ExecutionMm) (s : Context) : Act → Option Context
  | .observe mm source memory => s.observe mms mm source memory
  | .publish mm source memory => s.publish mms mm source memory
  | .lock => s.publication.bind s.lock
  | .replace outcome => s.publication.bind (s.replace · outcome)
  | .bind => s.publication.bind s.bind
  | .install => s.publication.bind s.install
  | .control target => s.control target
  | .check i => s.check i
  | .leave i => s.leave i

def init (mms : Nat → ExecutionMm) (identity mm : Nat) (source : MmBinding) (epoch : Nat) :
    Option Context :=
  if identity = 0 ∨ epoch = 0 ∨ matchesMm mms source (some mm) = false then none
  else
    let first : Target := ⟨source, mm, epoch⟩
    some ⟨first, [first], first.view, first.view, none, [], []⟩

end Context

end Vmctx.Execution
