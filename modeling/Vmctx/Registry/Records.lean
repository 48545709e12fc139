import Vmctx.Machine
/-!
# The source's registry of contexts

A record keeps one native descriptor and everything that was learnt of its task. Callers borrow it
by its id; the last reference that is put takes a final look at the task and closes the descriptor.
The sections under the registry lock are steps; a native query runs between them, so its answer is
as old as it happens to be. What a record's callers are at is kept with the record, and so are the
snapshots it has handed out, newest first, and how often it was claimed and closed.
-/

namespace Vmctx.Registry

structure Info where
  identity : Nat
  mmIdentity : Nat
  ended : Bool
  nativePid : Nat
  nativeTgid : Nat
  exitStatus : Nat
  deriving DecidableEq, Repr

def Info.zero : Info := ⟨0, 0, false, 0, 0, 0⟩

/-- `struct source_mm_binding`. -/
structure Binding where
  mm : Nat
  epoch : Nat
  deriving DecidableEq, Repr

structure Returned where
  info : Info
  epoch : Nat
  deriving DecidableEq, Repr

inductive Activity
  | asks
  | caches (info : Info)
  | releases
  | asksLast
  | closes (answer : Except Errno Info)
  | publishes (answer : Except Errno Info)

/-- `struct source_record`. -/
structure Record where
  descriptor : Nat
  opened : Bool
  info : Info
  bindings : List Binding
  refs : Nat
  retiring : Bool
  infoError : Option Errno
  connectionClaimed : Bool
  pending : List Activity
  returned : List Returned
  claims : Nat
  closed : Nat

def uintMax : Nat := 2 ^ 32 - 1

def intMax : Nat := 2 ^ 31 - 1

def uint64Max : Nat := 2 ^ 64 - 1

def pointersMax : Nat := (2 ^ 64 - 1) / 8

namespace Record

def blank (descriptor : Nat) : Record :=
  ⟨descriptor, true, .zero, [], 0, false, none, false, [], [], 0, 0⟩

def epoch (r : Record) : Nat := (r.bindings.head?.map (·.epoch)).getD 0

def current (r : Record) : Returned := ⟨r.info, r.epoch⟩

def bind (r : Record) (mm : Nat) (memory : Bool) : Except Errno Record :=
  match r.bindings with
  | [] =>
    if memory = false then .error .ENOMEM else .ok { r with bindings := [⟨mm, 1⟩] }
  | newest :: _ =>
    if mm = newest.mm then .ok r
    else if newest.epoch = uint64Max then .error .EOVERFLOW
    else if memory = false then .error .ENOMEM
    else .ok { r with bindings := ⟨mm, newest.epoch + 1⟩ :: r.bindings }

/-- `source_record_cache`; `memory` is the outcome of the allocation. -/
def cache (r : Record) (info : Info) (memory : Bool) : Except Errno Record :=
  if r.info.ended then .ok r
  else if info.mmIdentity < r.info.mmIdentity then
    if info.ended then .error .EPROTO else .ok r
  else if info.mmIdentity = 0 then .ok { r with info := info }
  else
    match r.bind info.mmIdentity memory with
    | .error errno => .error errno
    | .ok bound => .ok { bound with info := info }

def get (r : Record) : Except Errno Record :=
  if r.refs = 0 ∨ r.retiring then .error .ESRCH
  else if r.refs = uintMax then .error .EOVERFLOW
  else .ok { r with refs := r.refs + 1 }

def claim (r : Record) : Except Errno Record :=
  if r.refs = 0 ∨ r.retiring then .error .ESRCH
  else if r.connectionClaimed then .error .EALREADY
  else .ok { r with connectionClaimed := true, claims := r.claims + 1 }

/-- `source_record_put`: the last reference begins the release. -/
def put (r : Record) : Option Record :=
  if r.refs = 0 ∨ r.retiring then none
  else if r.refs - 1 ≠ 0 then some { r with refs := r.refs - 1 }
  else some { r with refs := 0, retiring := true, pending := .asksLast :: r.pending }

def ask (r : Record) (answer : Except Errno Info) : Except Errno Info :=
  if r.opened = false then .error .EBADF else answer

def close (r : Record) : Record :=
  if r.opened then { r with opened := false, closed := r.closed + 1 } else r

def retire (r : Record) (answer : Except Errno Info) (memory : Bool) : Record :=
  match answer with
  | .error errno => { r with infoError := some errno, retiring := false }
  | .ok info =>
    match r.cache info memory with
    | .error errno => { r with infoError := some errno, retiring := false }
    | .ok cached => { cached with infoError := none, retiring := false }

def publish (r : Record) (info : Info) (memory : Bool) : Record :=
  match r.cache info memory with
  | .error _ => r
  | .ok cached => { cached with returned := cached.current :: cached.returned }

def terminal (r : Record) : Record :=
  if r.refs ≠ 0 ∨ r.retiring ∨ r.infoError.isSome ∨ r.info.ended = false then r
  else { r with returned := r.current :: r.returned }

/-- One of the callers goes on, with the answer of a query and the outcome of an allocation. -/
def proceed (r : Record) (i : Nat) (answer : Except Errno Info) (memory : Bool) : Option Record :=
  match r.pending[i]? with
  | none => none
  | some .asks =>
    match r.ask answer with
    | .error _ => some { r with pending := r.pending.set i .releases }
    | .ok info => some { r with pending := r.pending.set i (.caches info) }
  | some (.caches info) =>
    some ({ r with pending := r.pending.set i .releases }.publish info memory)
  | some .releases => { r with pending := r.pending.eraseIdx i }.put
  | some .asksLast => some { r with pending := r.pending.set i (.closes (r.ask answer)) }
  | some (.closes answer) =>
    some { r with pending := r.pending.set i (.publishes answer) }.close
  | some (.publishes answer) =>
    some ({ r with pending := r.pending.eraseIdx i }.retire answer memory)

def hasBinding (r : Record) (mm epoch : Nat) : Bool :=
  mm ≠ 0 ∧ epoch ≠ 0 ∧ r.bindings.any fun b => b.mm = mm ∧ b.epoch = epoch

end Record

/-- The registry of sources. -/
structure Catalog where
  records : List Record
  capacity : Nat
  waiting : List Nat

inductive Act
  | add (descriptor : Nat) (answer : Except Errno Info) (record grown binding : Bool)
  | get (id : Nat)
  | put (id : Nat)
  | claim (id : Nat)
  | snapshot (id : Nat)
  | terminal (i : Nat)
  | proceed (id i : Nat) (answer : Except Errno Info) (memory : Bool)

namespace Catalog

def new : Catalog := ⟨[], 0, []⟩

def find (s : Catalog) (id : Nat) : Option Record :=
  if id = 0 then none else s.records[id - 1]?

def set (s : Catalog) (id : Nat) (r : Record) : Catalog :=
  { s with records := s.records.set (id - 1) r }

def grownCapacity (s : Catalog) (grown : Bool) : Option Nat :=
  if s.records.length ≠ s.capacity then some s.capacity
  else
    let doubled := if s.capacity = 0 then 64 else s.capacity * 2
    let capacity := if intMax < doubled then intMax else doubled
    if pointersMax < capacity ∨ grown = false then none else some capacity

/-- `source_record_add`: the new registry and the id, zero when it fails. -/
def add (s : Catalog) (descriptor : Nat) (answer : Except Errno Info)
    (record grown binding : Bool) : Catalog × Nat :=
  match answer with
  | .error _ => (s, 0)
  | .ok info =>
    if record = false ∨ intMax ≤ s.records.length then (s, 0)
    else
      match s.grownCapacity grown with
      | none => (s, 0)
      | some capacity =>
        match (Record.blank descriptor).cache info binding with
        | .error _ => ({ s with capacity := capacity }, 0)
        | .ok cached =>
          ({ s with
              records := s.records ++ [{ cached with refs := 1 }]
              capacity := capacity },
            s.records.length + 1)

/-- `source_record_get`. -/
def get (s : Catalog) (id : Nat) : Except Errno Catalog :=
  match s.find id with
  | none => .error .ESRCH
  | some r =>
    match r.get with
    | .error errno => .error errno
    | .ok held => .ok (s.set id held)

/-- `source_record_claim`. -/
def claim (s : Catalog) (id : Nat) : Except Errno Catalog :=
  match s.find id with
  | none => .error .ESRCH
  | some r =>
    match r.claim with
    | .error errno => .error errno
    | .ok claimed => .ok (s.set id claimed)

/-- `source_record_snapshot` up to its question to the kernel. -/
def snapshot (s : Catalog) (id : Nat) : Catalog :=
  match s.find id with
  | none => { s with waiting := id :: s.waiting }
  | some r =>
    match r.get with
    | .error _ => { s with waiting := id :: s.waiting }
    | .ok held => s.set id { held with pending := .asks :: held.pending }

def next (s : Catalog) : Act → Option Catalog
  | .add descriptor answer record grown binding =>
    some (s.add descriptor answer record grown binding).1
  | .get id =>
    some (match s.get id with
      | .error _ => s
      | .ok held => held)
  | .put id => (s.find id).bind fun r => r.put.map (s.set id)
  | .claim id =>
    some (match s.claim id with
      | .error _ => s
      | .ok claimed => claimed)
  | .snapshot id => some (s.snapshot id)
  | .terminal i =>
    (s.waiting[i]?).map fun id =>
      let s := { s with waiting := s.waiting.eraseIdx i }
      match s.find id with
      | none => s
      | some r => s.set id r.terminal
  | .proceed id i answer memory =>
    (s.find id).bind fun r => (r.proceed i answer memory).map (s.set id)

/-- `source_record_has_binding`. -/
def hasBinding (s : Catalog) (id mm epoch : Nat) : Bool :=
  (s.find id).any (·.hasBinding mm epoch)

end Catalog

end Vmctx.Registry
