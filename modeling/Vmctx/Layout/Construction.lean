import Vmctx.System.Run
import Vmctx.Table.Newest
import Vmctx.Table.Reserve
/-!
# The executor's live mapping records

A construction is a range that a reply mapped, with the sequence of the reply. Constructions
overlap: a later reply covers an older one, and a protection change is recorded over what it
protects. The table keeps a row for each, in no order, drops what a newer record of the same range
makes irrelevant, and cuts rows where a range is retired up to a sequence. What the table is for is
a map from each address to all of the versions noted there and not retired.
-/

namespace Vmctx.Layout

open Table

def mapNone : Nat := 0

def mapSet : Nat := 1

def mapProt : Nat := 2

def mapSetShared : Nat := 4

/-- The offset a number of bytes into a range. It advances with the address where an object is
mapped, and is the same for all of the range otherwise. -/
def shift (op : Nat) (off : UInt64) (bytes : Nat) : UInt64 :=
  if op = mapSet ∨ op = mapSetShared then off + UInt64.ofNat bytes else off

/-- `struct construction`. -/
structure Construction where
  start : Nat
  past : Nat
  seq : Nat
  off : UInt64
  order : Nat
  op : Nat
  prot : Nat
  as : Nat
  deriving DecidableEq, Repr

structure Constructions where
  rows : List Construction
  capacity : Nat
  order : Nat
  deriving DecidableEq, Repr

structure Covering where
  start : Nat
  past : Nat
  op : Nat
  prot : Nat
  off : UInt64
  seq : Nat
  deriving DecidableEq, Repr

def Construction.free : Construction := ⟨0, 0, 0, 0, 0, 0, 0, 0⟩

/-- `cons_newer`. -/
def Construction.newer (a b : Construction) : Bool :=
  b.seq < a.seq ∨ a.seq = b.seq ∧ b.order < a.order

def Construction.Covers (row : Construction) (as x : Nat) : Prop :=
  row.as = as ∧ row.seq ≠ 0 ∧ row.start ≤ x ∧ x < row.past

instance (row : Construction) (as x : Nat) : Decidable (row.Covers as x) :=
  inferInstanceAs (Decidable (_ ∧ _ ∧ _ ∧ _))

namespace Constructions

def new : Constructions := ⟨[], 0, 0⟩

/-- `cons_slot_locked`: the table with the slot, and its index. Nothing is returned where it
aborts. -/
def slot (t : Constructions) (memory : Bool) : Option (Constructions × Nat) :=
  match t.rows.findIdx? (·.seq = 0) with
  | some i => some (t, i)
  | none =>
    let t' := { t with rows := t.rows ++ [.free] }
    if t.rows.length = t.capacity then
      let cap := if t.capacity = 0 then 128 else t.capacity * 2 % 2 ^ 64
      if t.capacity < cap ∧ cap ≤ sizeMax / 56 ∧ memory then
        some ({ t' with capacity := cap }, t.rows.length)
      else none
    else some (t', t.rows.length)

/-- The end of `cons_note_locked`: a row is published. Nothing is returned where the counter is
exhausted. -/
def publish (t : Constructions) (slot : Nat) (row : Construction) : Option Constructions :=
  if (t.order + 1) % 2 ^ 64 = 0 then none
  else some { t with
    order := t.order + 1, rows := t.rows.set slot { row with order := t.order + 1 } }

def same (as start past op : Nat) (c : Construction) : Bool :=
  c.seq ≠ 0 ∧ c.as = as ∧ c.start = start ∧ c.past = past ∧ (c.op = mapProt ↔ op = mapProt)

/-- `cons_note_locked`; none where the table cannot grow. -/
def note (t : Constructions) (as start past seq op prot : Nat) (off : UInt64) (memory : Bool) :
    Option Constructions :=
  if seq = 0 ∨ past ≤ start then some t
  else
    let row : Construction := { start, past, seq, off, order := 0, op, prot, as }
    match t.rows.findIdx? (same as start past op) with
    | some i => if t.rows[i]?.any (seq < ·.seq) then some t else t.publish i row
    | none => (t.slot memory).bind fun (t, i) => t.publish i row

def best (t : Constructions) (as addr : Nat) : Option Construction :=
  newest Construction.newer (t.rows.filter fun row => row.Covers as addr)

/-- The body of the second loop of `cons_covering`: a newer row of the address space bounds the part
of the range on which the row is the newest. -/
def spanStep (as addr : Nat) (best c : Construction) : Nat × Nat → Nat × Nat
  | (lo, hi) =>
    if c.as ≠ as ∨ c.seq = 0 ∨ c.newer best = false then (lo, hi)
    else
      (if c.past ≤ addr ∧ lo < c.past then c.past else lo,
        if addr < c.start ∧ c.start < hi then c.start else hi)

def span (as addr : Nat) (best : Construction) (rows : List Construction) : Nat × Nat :=
  rows.foldl (fun bounds c => spanStep as addr best c bounds) (best.start, best.past)

/-- `cons_covering`. -/
def covering (t : Constructions) (as addr : Nat) : Option Covering :=
  match t.best as addr with
  | none => none
  | some best =>
    if best.op = 0 then none
    else
      let (lo, hi) := span as addr best t.rows
      some ⟨lo, hi, best.op, best.prot, shift best.op best.off (lo - best.start), best.seq⟩

def killRow (t : Constructions) (as start past upto : Nat) (memory : Bool) (i : Nat)
    (row : Construction) : Option Constructions :=
  if row.as ≠ as ∨ row.seq = 0 ∨ row.past ≤ start ∨ past ≤ row.start ∨
      upto ≠ 0 ∧ upto ≤ row.seq then
    some t
  else
    let low := { row with past := start }
    let high := { row with start := past, off := shift row.op row.off (past - row.start) }
    if row.start < start ∧ past < row.past then
      (t.slot memory).map fun (t, right) => { t with rows := (t.rows.set i low).set right high }
    else if row.start < start then some { t with rows := t.rows.set i low }
    else if past < row.past then some { t with rows := t.rows.set i high }
    else some { t with rows := t.rows.set i { row with seq := 0 } }

def killFrom (as start past upto : Nat) (memory : Bool) :
    (count i : Nat) → Constructions → Option Constructions
  | 0, _, t => some t
  | count + 1, i, t =>
    match t.rows[i]? with
    | none => some t
    | some row =>
      (t.killRow as start past upto memory i row).bind
        (killFrom as start past upto memory count (i + 1))

/-- `cons_kill`. -/
def kill (t : Constructions) (as start past upto : Nat) (memory : Bool) : Option Constructions :=
  if past ≤ start then some t else killFrom as start past upto memory t.rows.length 0 t

end Constructions

inductive ConsCall
  | note (as start past seq : UInt64) (op prot : UInt32) (off : UInt64)
  | kill (as start past upto : UInt64)
  deriving DecidableEq, Repr

/-- A call is made; whether there is memory, should it be needed, is given. -/
def Constructions.apply (t : Constructions) (call : ConsCall) (memory : Bool) :
    Option Constructions :=
  match call with
  | .note as start past seq op prot off =>
    t.note as.toNat start.toNat past.toNat seq.toNat op.toNat prot.toNat off memory
  | .kill as start past upto => t.kill as.toNat start.toNat past.toNat upto.toNat memory

/-! ## What the table is for -/

structure Version where
  seq : Nat
  order : Nat
  op : Nat
  prot : Nat
  off : UInt64
  deriving DecidableEq, Repr

def Version.newer (a b : Version) : Bool :=
  b.seq < a.seq ∨ a.seq = b.seq ∧ b.order < a.order

/-- The versions at every address, and how many notes there were. -/
structure Versions where
  held : Nat → Nat → List Version
  count : Nat

namespace Versions

def new : Versions := ⟨fun _ _ => [], 0⟩

def note (m : Versions) (as start past seq op prot : Nat) (off : UInt64) : Versions where
  held a x :=
    if seq ≠ 0 ∧ a = as ∧ start ≤ x ∧ x < past then
      ⟨seq, m.count + 1, op, prot, shift op off (x - start)⟩ :: m.held a x
    else m.held a x
  count := m.count + 1

def retires (upto : Nat) (v : Version) : Bool := upto = 0 ∨ v.seq < upto

def kill (m : Versions) (as start past upto : Nat) : Versions :=
  { m with held := fun a x =>
      if a = as ∧ start ≤ x ∧ x < past then (m.held a x).filter (! retires upto ·) else m.held a x }

def apply (m : Versions) : ConsCall → Versions
  | .note as start past seq op prot off =>
    m.note as.toNat start.toNat past.toNat seq.toNat op.toNat prot.toNat off
  | .kill as start past upto => m.kill as.toNat start.toNat past.toNat upto.toNat

def newest (m : Versions) (as x : Nat) : Option Version := Table.newest Version.newer (m.held as x)

end Versions

end Vmctx.Layout
