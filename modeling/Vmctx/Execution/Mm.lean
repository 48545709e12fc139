import Vmctx.Machine
import Vmctx.System.Run
import Vmctx.Table.Reserve
/-!
# The executor's MM registry

The source names memory and its ancestry; the executor keeps a record of each, with an object of its
own. Records are published under the registry's lock, but the object is made without it, so a caller
looks first, makes an object, and looks again before it publishes; one that comes second closes its
object. Records are never removed, and an ancestor is published before its descendants.
-/

namespace Vmctx.Execution

/-- `struct execution_mm`. A record is known by its place among all that were published; a
descriptor is known by the object it is of. -/
structure Mm where
  identity : UInt64
  parent : Option Nat
  backing : Nat
  deriving DecidableEq, Repr

/-- `execution_mm_bucket`. -/
def mmBucket (identity : UInt64) : Nat :=
  let mixed := identity ^^^ identity >>> 33
  let mixed := mixed * 0xff51afd7ed558ccd
  let mixed := mixed ^^^ mixed >>> 33
  (mixed % 1024).toNat

/-- `struct execution_mm_registry`, with pointers as positions in `heap`. -/
structure MmRegistry where
  heap : List Mm
  bucket : Nat → List Nat
  count : Nat

namespace MmRegistry

def new : MmRegistry := ⟨[], fun _ => [], 0⟩

/-- `execution_mm_find_locked`. -/
def find (r : MmRegistry) (identity : UInt64) : Option Nat :=
  (r.bucket (mmBucket identity)).find? fun p => r.heap[p]?.any (·.identity = identity)

def parent (r : MmRegistry) (p : Nat) : Option Nat := r.heap[p]?.bind (·.parent)

def publish (r : MmRegistry) (mm : Mm) : MmRegistry where
  heap := r.heap ++ [mm]
  bucket b := if b = mmBucket mm.identity then r.heap.length :: r.bucket b else r.bucket b
  count := r.count + 1

def ancestor (r : MmRegistry) (parentIdentity : UInt64) : Option Nat :=
  if parentIdentity = 0 then none else r.find parentIdentity

/-- The first section of `execution_mm_resolve` under the lock: the ancestor, and the record if
there is one. -/
def look (r : MmRegistry) (identity parentIdentity : UInt64) :
    Except Errno (Option Nat × Option Nat) :=
  if parentIdentity ≠ 0 ∧ r.ancestor parentIdentity = none then .error .ENOENT
  else if (r.find identity).any (r.parent · ≠ r.ancestor parentIdentity) then .error .EPROTO
  else .ok (r.ancestor parentIdentity, r.find identity)

end MmRegistry

/-- Where a call of `execution_mm_resolve` is. -/
inductive ResolvePhase
  | entering
  | making (parent : Option Nat)
  | publishing (parent : Option Nat) (object : Nat)
  | closing (object : Nat) (result : Except Errno Nat)
  | returned (result : Except Errno Nat)

structure Resolve where
  identity : UInt64
  parentIdentity : UInt64
  phase : ResolvePhase

/-- The registry and its callers. -/
structure MmState where
  registry : MmRegistry
  /-- The calls of `execution_mm_resolve`, in the order of their beginning. -/
  calls : List Resolve
  finds : List (UInt64 × Except Errno Nat)
  made : Nat
  closed : List Nat

inductive MmEvent
  | find (identity : UInt64)
  | resolve (identity parentIdentity : UInt64)
  | look (call : Nat)
  | noMemory (call : Nat)
  | makeFails (call : Nat) (errno : Errno)
  | makes (call : Nat)
  | publish (call : Nat)
  | closes (call : Nat)

namespace MmState

def new : MmState := ⟨.new, [], [], 0, []⟩

def goto (s : MmState) (i : Nat) (call : Resolve) (phase : ResolvePhase) : MmState :=
  { s with calls := s.calls.set i { call with phase } }

def publish (s : MmState) (i : Nat) (call : Resolve) (parent : Option Nat) (object : Nat) :
    MmState :=
  match s.registry.find call.identity with
  | some mm =>
    if s.registry.parent mm ≠ parent then s.goto i call (.closing object (.error .EPROTO))
    else s.goto i call (.closing object (.ok mm))
  | none =>
    if s.registry.count = Table.sizeMax then s.goto i call (.closing object (.error .EOVERFLOW))
    else
      { s.goto i call (.returned (.ok s.registry.heap.length)) with
        registry := s.registry.publish ⟨call.identity, parent, object⟩ }

/-- The sections of `execution_mm_resolve`. -/
def callNext (s : MmState) (i : Nat) (call : Resolve) : MmEvent → Option MmState
  | .look _ =>
    match call.phase with
    | .entering =>
      match s.registry.look call.identity call.parentIdentity with
      | .error errno => some (s.goto i call (.returned (.error errno)))
      | .ok (_, some mm) => some (s.goto i call (.returned (.ok mm)))
      | .ok (parent, none) => some (s.goto i call (.making parent))
    | _ => none
  | .noMemory _ =>
    match call.phase with
    | .making _ => some (s.goto i call (.returned (.error .ENOMEM)))
    | _ => none
  | .makeFails _ errno =>
    match call.phase with
    | .making _ => some (s.goto i call (.returned (.error errno)))
    | _ => none
  | .makes _ =>
    match call.phase with
    | .making parent => some { s.goto i call (.publishing parent s.made) with made := s.made + 1 }
    | _ => none
  | .publish _ =>
    match call.phase with
    | .publishing parent object => some (s.publish i call parent object)
    | _ => none
  | .closes _ =>
    match call.phase with
    | .closing object result =>
      some { s.goto i call (.returned result) with closed := object :: s.closed }
    | _ => none
  | _ => none

/-- A step of a caller, or a whole `execution_mm_find`. -/
def next (s : MmState) (e : MmEvent) : Option MmState :=
  match e with
  | .find identity =>
    let result := match s.registry.find identity with
      | none => .error .ENOENT
      | some mm => .ok mm
    some { s with finds := (identity, result) :: s.finds }
  | .resolve identity parentIdentity =>
    let phase := if identity = 0 ∨ identity = parentIdentity then .returned (.error .EINVAL)
      else .entering
    some { s with calls := s.calls ++ [⟨identity, parentIdentity, phase⟩] }
  | .look i | .noMemory i | .makeFails i _ | .makes i | .publish i | .closes i =>
    s.calls[i]?.bind fun call => s.callNext i call e

end MmState

/-! ## The registry -/

variable {r : MmRegistry} {s s' : MmState} {identity parentIdentity : UInt64} {mm : Mm} {p i : Nat}

namespace MmRegistry

def Has (r : MmRegistry) (p : Nat) (identity : UInt64) : Prop :=
  ∃ mm, r.heap[p]? = some mm ∧ mm.identity = identity

def Names (r : MmRegistry) (parent : Option Nat) (parentIdentity : UInt64) : Prop :=
  match parent with
  | none => parentIdentity = 0
  | some q => parentIdentity ≠ 0 ∧ r.Has q parentIdentity

structure Good (r : MmRegistry) : Prop where
  count : r.count = r.heap.length
  bucket : ∀ b, ∀ p ∈ r.bucket b, ∃ mm, r.heap[p]? = some mm ∧ mmBucket mm.identity = b
  chained : ∀ (p : Nat) mm, r.heap[p]? = some mm → p ∈ r.bucket (mmBucket mm.identity)
  unique : ∀ p q identity, r.Has p identity → r.Has q identity → p = q
  earlier : ∀ (p : Nat) mm q, r.heap[p]? = some mm → mm.parent = some q → q < p

theorem Good.new : Good .new where
  count := rfl
  bucket _ _ here := absurd here List.not_mem_nil
  chained _ _ here := by cases here
  unique _ _ _ := fun ⟨_, here, _⟩ => by cases here
  earlier _ _ _ here := by cases here

theorem Good.find_iff (good : r.Good) : r.find identity = some p ↔ r.Has p identity := by
  constructor
  · intro found
    have named := List.find?_some found
    obtain ⟨mm, placed, same⟩ := (Option.any_eq_true _ _).mp named
    exact ⟨mm, placed, of_decide_eq_true same⟩
  · intro has
    obtain ⟨mm, placed, rfl⟩ := id has
    cases found : r.find mm.identity with
    | none =>
      have silent := List.find?_eq_none.mp found p (good.chained p mm placed)
      rw [placed, Option.any_some, decide_eq_true rfl] at silent
      exact absurd rfl silent
    | some q =>
      have named := List.find?_some found
      obtain ⟨other, there, same⟩ := (Option.any_eq_true _ _).mp named
      exact congrArg some (good.unique q p _ ⟨other, there, of_decide_eq_true same⟩ has)

theorem Good.find_none (good : r.Good) (none : r.find identity = none) : ¬r.Has p identity :=
  fun has => Option.some_ne_none p ((good.find_iff.mpr has).symm.trans none)

theorem publish_kept {new : Mm} (placed : r.heap[p]? = some mm) :
    (r.publish new).heap[p]? = some mm := by
  show (r.heap ++ [new])[p]? = some mm
  rw [List.getElem?_append_left (List.getElem?_eq_some_iff.mp placed).1, placed]

theorem publish_cases {new : Mm} (placed : (r.publish new).heap[p]? = some mm) :
    r.heap[p]? = some mm ∨ p = r.heap.length ∧ mm = new := by
  have placed : (r.heap ++ [new])[p]? = some mm := placed
  by_cases old : p < r.heap.length
  · rw [List.getElem?_append_left old] at placed
    exact .inl placed
  · have bound := (List.getElem?_eq_some_iff.mp placed).1
    rw [List.length_append, List.length_singleton] at bound
    have last : p = r.heap.length := by omega
    rw [last, List.getElem?_concat_length] at placed
    exact .inr ⟨last, (Option.some.inj placed).symm⟩

theorem Good.publish {new : Mm} (good : r.Good) (absent : r.find new.identity = none)
    (known : ∀ q, new.parent = some q → q < r.heap.length) : (r.publish new).Good := by
  refine ⟨?_, ?_, ?_, ?_, ?_⟩
  · show r.count + 1 = (r.heap ++ [new]).length
    rw [good.count, List.length_append, List.length_singleton]
  · intro b p member
    simp only [MmRegistry.publish] at member
    have old (here : p ∈ r.bucket b) :
        ∃ mm, (r.publish new).heap[p]? = some mm ∧ mmBucket mm.identity = b := by
      obtain ⟨mm, placed, same⟩ := good.bucket b p here
      exact ⟨mm, publish_kept placed, same⟩
    split at member
    · next same =>
      obtain rfl | here := List.mem_cons.mp member
      · exact ⟨new, List.getElem?_concat_length, same.symm⟩
      · exact old here
    · exact old member
  · intro p mm placed
    simp only [MmRegistry.publish]
    obtain old | ⟨rfl, rfl⟩ := publish_cases placed
    · have here := good.chained p mm old
      split
      · exact List.mem_cons_of_mem _ here
      · exact here
    · rw [if_pos rfl]
      exact List.mem_cons_self
  · rintro p q identity ⟨mm, placed, rfl⟩ ⟨mn, there, same⟩
    obtain old | ⟨rfl, rfl⟩ := publish_cases placed
    · obtain also | ⟨rfl, rfl⟩ := publish_cases there
      · exact good.unique p q _ ⟨mm, old, rfl⟩ ⟨mn, also, same⟩
      · exact absurd ⟨mm, old, same.symm⟩ (good.find_none absent)
    · obtain also | ⟨rfl, -⟩ := publish_cases there
      · exact absurd ⟨mn, also, same⟩ (good.find_none absent)
      · rfl
  · intro p mm q placed ancestor
    obtain old | ⟨rfl, rfl⟩ := publish_cases placed
    · exact good.earlier p mm q old ancestor
    · exact known q ancestor

end MmRegistry

end Vmctx.Execution
