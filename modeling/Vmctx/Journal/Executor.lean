import Mathlib.Data.List.Induction
import Vmctx.Journal.Kernel
/-!
# The executor's side of the access journal

`serveAccess` is what the source's service turns the answer of a control into, `accessBatchValid`,
`accessApplyBatch` and `ackAccepted` are the checks and the work of the executor's `access_sync`.
What `access_apply_span` does to the executor's mappings is a parameter: it applies a span or fails.
-/

namespace Vmctx.Journal

def pgSize : Nat := 4096

def wireUnmap : Nat := 1

def wireConstruct : Nat := 6

def AccessKind.wire : AccessKind → Nat
  | .unmap => wireUnmap
  | .discard => 2
  | .protect => 3
  | .deny => 4
  | .allow => 5
  | .construct => wireConstruct

/-- `struct vmr_access_event`. -/
structure WireEvent where
  sequence : Nat
  start : Nat
  end_ : Nat
  kind : Nat
  protection : Nat
  deriving DecidableEq, Repr

def AccessEvent.wire (e : AccessEvent) : WireEvent :=
  ⟨e.seq, e.start, e.end_, e.kind.wire, Journal.protection e.prot⟩

/-- A batch on the wire, `struct vmr_access_batch`; `count` is the number of events. -/
structure WireBatch where
  identity : Nat
  cursor : Nat
  head : Nat
  acknowledged : Nat
  reserved : Nat
  event : List WireEvent
  deriving DecidableEq, Repr

def batchSize : Nat := 552

/-- What a call to the source brings back: its result, the bytes received and the batch in them. -/
structure WireReply where
  retval : Option Nat
  datalen : Nat
  batch : WireBatch
  deriving DecidableEq, Repr

def WireReply.refused : WireReply := ⟨none, 0, ⟨0, 0, 0, 0, 0, []⟩⟩

/-- The reply of the service to `VMR_OP_ACCESS_READ` and `VMR_OP_ACCESS_ACK` for the answer of the
control it made on the address space `mm`. -/
def serveAccess (mm : Nat) : Except Errno AccessLog → WireReply
  | .error _ => .refused
  | .ok log =>
    if log.mmId ≠ mm ∨ log.event.length > accessMax ∨ log.error ≠ 0 then .refused
    else
      ⟨some batchSize, batchSize,
        ⟨log.mmId, log.cursor, log.head, log.acked, 0, log.event.map AccessEvent.wire⟩⟩

def serveRequest (op mm cursor : Nat) : AccessRequest :=
  ⟨accessAbi, accessLogSize, op, 0, 0, mm, cursor⟩

def wireEventValid (head previous : Nat) (e : WireEvent) : Bool :=
  ¬ (e.sequence ≤ previous ∨ e.sequence > head ∨ e.start ≥ e.end_ ∨
    (e.start ||| e.end_) % pgSize ≠ 0 ∨ e.kind < wireUnmap ∨ e.kind > wireConstruct ∨
    e.protection ≥ 8)

/-- The loop of `access_batch_valid` over the events; it ends with the last event's number. -/
def batchPrevious (head : Nat) : Nat → List WireEvent → Option Nat
  | previous, [] => some previous
  | previous, e :: rest =>
    if wireEventValid head previous e then batchPrevious head e.sequence rest else none

/-- `access_batch_valid`. -/
def accessBatchValid (b : WireBatch) (identity acknowledged : Nat) : Bool :=
  if b.identity ≠ identity ∨ b.reserved ≠ 0 ∨ b.event.length > accessMax ∨
      b.acknowledged ≠ acknowledged ∨ b.cursor > b.head then false
  else
    match batchPrevious b.head acknowledged b.event with
    | none => false
    | some previous => b.cursor = previous

structure Construction where
  as : Nat
  op : Nat
  seq : Nat
  start : Nat
  end_ : Nat

def mapProt : Nat := 2

/-- `access_construction_boundary`: the end of the span that starts here, and whether a newer
mapping covers it so that the event must leave it alone. -/
def accessConstructionBoundary (cons : List Construction) (as start end_ sequence kind : Nat) :
    Nat × Bool :=
  cons.foldl (fun (next, skip) c =>
    if c.as ≠ as ∨ c.op = mapProt ∨ c.seq < sequence ∨ (c.seq = sequence ∧ kind ≠ wireUnmap) ∨
        c.end_ ≤ start ∨ c.start ≥ end_ then (next, skip)
    else if c.start ≤ start then (if c.end_ < next then c.end_ else next, true)
    else if c.start < next then (c.start, skip)
    else (next, skip)) (end_, false)

/-- What applying events depends on: the constructions as the loop finds them at an event and an
address, and whether `access_apply_span` succeeds on a span. -/
structure Applier where
  cons : WireEvent → Nat → List Construction
  span : WireEvent → Nat → Nat → Bool

/-- The loop of `access_apply_batch` over the spans of one event. Each round moves on by at least
one address, so the fuel is the length of what is left. -/
def Applier.spans (a : Applier) (as : Nat) (e : WireEvent) : Nat → Nat → Bool
  | 0, _ => true
  | fuel + 1, start =>
    if start < e.end_ then
      let (end_, skip) :=
        accessConstructionBoundary (a.cons e start) as start e.end_ e.sequence e.kind
      if end_ ≤ start ∨ (skip = false ∧ a.span e start end_ = false) then false
      else a.spans as e fuel end_
    else true

def Applier.event (a : Applier) (as : Nat) (e : WireEvent) : Bool :=
  a.spans as e (e.end_ - e.start) e.start

/-- `access_apply_batch`: the events it came to, the one it failed at included, and its result. -/
def accessApplyBatch (a : Applier) (as : Nat) : List WireEvent → List WireEvent × Bool
  | [] => ([], true)
  | e :: rest =>
    if a.event as e then
      let (applied, result) := accessApplyBatch a as rest
      (e :: applied, result)
    else ([e], false)

/-- The executor's cursor of an address space, `struct access_cursor`. -/
structure AccessCursor where
  identity : Nat
  acknowledged : Nat
  failed : Option Errno
  deriving DecidableEq, Repr

def readAccepted (c : AccessCursor) (r : WireReply) : Bool :=
  r.retval = some batchSize ∧ r.datalen = batchSize ∧
    accessBatchValid r.batch c.identity c.acknowledged

/-- `access_sync` goes on with the reply to its `ACK` of a batch. -/
def ackAccepted (c : AccessCursor) (batch : WireBatch) (r : WireReply) : Bool :=
  r.retval = some batchSize ∧ r.datalen = batchSize ∧ r.batch.reserved = 0 ∧
    r.batch.identity = c.identity ∧ r.batch.acknowledged = batch.cursor ∧
    r.batch.cursor = batch.cursor ∧ batch.cursor ≤ r.batch.head ∧ r.batch.event = []

/-! ## The executor's work on a batch -/

theorem accessApplyBatch_prefix (a : Applier) (as : Nat) (events : List WireEvent) :
    (accessApplyBatch a as events).1 <+: events ∧
      ((accessApplyBatch a as events).2 = true → (accessApplyBatch a as events).1 = events) := by
  induction events with
  | nil => exact ⟨List.prefix_refl _, fun _ => rfl⟩
  | cons e rest ih =>
    simp only [accessApplyBatch]
    split
    · exact ⟨(List.prefix_cons_inj e).mpr ih.1, fun all => congrArg (e :: ·) (ih.2 all)⟩
    · exact ⟨⟨rest, rfl⟩, nofun⟩

/-! ## Newer mappings -/

/-- The mapping has the address and is newer than the event, which must leave it alone. -/
def Construction.Spares (c : Construction) (as : Nat) (e : WireEvent) (x : Nat) : Prop :=
  c.as = as ∧ c.op ≠ mapProt ∧ (e.sequence < c.seq ∨ (c.seq = e.sequence ∧ e.kind = wireUnmap)) ∧
    c.start ≤ x ∧ x < c.end_

def Spared (cons : List Construction) (as : Nat) (e : WireEvent) (x : Nat) : Prop :=
  ∃ c ∈ cons, c.Spares as e x

/-- Constructions that stay in place, and spans that fail exactly when they have an address. -/
def Applier.probe (cons : List Construction) (x : Nat) : Applier :=
  ⟨fun _ _ => cons, fun _ lo hi => ¬ (lo ≤ x ∧ x < hi)⟩

variable {cons : List Construction} {as x rounds start : Nat} {e : WireEvent}

/-- A span is not empty, and newer mappings have all of it or nothing. -/
theorem boundary_spec (room : start < e.end_) :
    let (next, skip) := accessConstructionBoundary cons as start e.end_ e.sequence e.kind
    start < next ∧ next ≤ e.end_ ∧
      ∀ x, start ≤ x → x < next → (skip = true ↔ Spared cons as e x) := by
  induction cons using List.reverseRecOn with
  | nil => simp [accessConstructionBoundary, Spared, room]
  | append_singleton cons c ih =>
    have split_ : ∀ x, Spared (cons ++ [c]) as e x ↔ Spared cons as e x ∨ c.Spares as e x := by
      simp [Spared, or_and_right, exists_or]
    simp only [accessConstructionBoundary, List.foldl_append, List.foldl_cons, List.foldl_nil,
      split_] at ih ⊢
    revert ih
    generalize List.foldl _ (e.end_, false) cons = found
    -- A newer mapping at the start bounds the span by its end, any other by its start.
    grind [Construction.Spares]

theorem spans_probe (enough : e.end_ - start ≤ rounds) :
    (Applier.probe cons x).spans as e rounds start = false ↔
      start ≤ x ∧ x < e.end_ ∧ ¬ Spared cons as e x := by
  induction rounds generalizing start with
  | zero => grind [Applier.spans]
  | succ rounds ih =>
    rw [Applier.spans]
    by_cases room : start < e.end_
    · have spec := @boundary_spec cons as start e room
      rw [if_pos room, show (Applier.probe cons x).cons e start = cons from rfl]
      revert spec
      generalize accessConstructionBoundary cons as start e.end_ e.sequence e.kind = found
      grind [Applier.probe]
    · rw [if_neg room]
      grind

/-- While `layout_order_lock` keeps the newer mappings in place, an event is applied to exactly the
addresses of its range that none of them has: the loop of `access_apply_batch` reaches every address
and hands `access_apply_span` a span with it if and only if it is not spared. -/
theorem access_event_spares_newer (cons : List Construction) (as x : Nat) (e : WireEvent) :
    (Applier.probe cons x).event as e = false ↔
      e.start ≤ x ∧ x < e.end_ ∧ ¬ Spared cons as e x :=
  spans_probe (Nat.le_refl _)

end Vmctx.Journal
