import Vmctx.Machine
import Vmctx.System.Run
import Vmctx.Table.Growing
import Vmctx.Table.Reserve
/-!
# Fork lineage and broken pages on the source

The source records for every forked address space the one it was forked from, and for every page of
an address space that was broken away from its parent that it was. The lineage is a list of rows and
the broken pages are an open-addressed array that doubles when half of it is taken. Failed
allocations, size limits and contradictory notes end the process.

`noted` and `broken` list what the calls named, latest first; no call reads them.
-/

namespace Vmctx.Lineage

open Table Vmctx.System List

/-! The lineage. -/

structure Row where
  child : UInt64
  parent : UInt64
  deriving DecidableEq

structure ForkRel where
  rows : List Row
  capacity : Nat

/-- `fork_parent_mm`. -/
def forkParentMm (rel : ForkRel) (child : UInt64) : UInt64 :=
  match rel.rows.find? fun row => row.child == child with
  | some row => row.parent
  | none => 0

/-- `fork_rel_note`. -/
def forkRelNote (rel : ForkRel) (cm pm : UInt64) (allocated : Bool) : Except Stuck ForkRel :=
  if cm = 0 ∨ pm = 0 ∨ cm ≤ pm then .error .aborted
  else
    match rel.rows.find? fun row => row.child == cm with
    | some row => if row.parent ≠ pm then .error .aborted else .ok rel
    | none =>
      if rel.rows.length = rel.capacity then
        let capacity := doubled rel.capacity 64
        if capacity < rel.capacity ∨ sizeMax / 16 < capacity ∨ allocated = false then
          .error .aborted
        else .ok ⟨rel.rows ++ [⟨cm, pm⟩], capacity⟩
      else .ok { rel with rows := rel.rows ++ [⟨cm, pm⟩] }

def childrenFrom (pm : UInt64) (max : Nat) : List Row → List UInt64 → Except Stuck (List UInt64)
  | [], out => .ok out
  | row :: rows, out =>
    if row.parent ≠ pm then childrenFrom pm max rows out
    else if out.length = max then .error .aborted
    else childrenFrom pm max rows (out ++ [row.child])

/-- `fork_rel_children`. -/
def forkRelChildren (rel : ForkRel) (pm : UInt64) (max : Nat) : Except Stuck (List UInt64) :=
  childrenFrom pm max rel.rows []

/-! The broken pages. -/

/-- `struct source_cow_entry`. -/
structure CowEntry where
  mm : UInt64
  page : UInt64
  deriving DecidableEq

/-- The hash of `source_cow_slot`. -/
def sourceCowHash (mm page : UInt64) : UInt64 :=
  let hash : UInt64 := mm * (0x9e3779b97f4a7c15 : UInt64) ^^^ (page >>> 12)
  let hash : UInt64 := (hash ^^^ (hash >>> 30)) * (0xbf58476d1ce4e5b9 : UInt64)
  hash ^^^ (hash >>> 27)

def cowing : Hashing CowEntry (UInt64 × UInt64) where
  hash key := (sourceCowHash key.1 key.2).toNat
  key e := if e.mm = 0 then none else some (e.mm, e.page)
  vacant e := e.mm == 0
  blank := ⟨0, 0⟩
  vacant_key _ vacant := if_pos (eq_of_beq vacant)
  blank_vacant := rfl

/-- The table of `struct source_cow_entry`. -/
structure Cow where
  tab : Nat → CowEntry
  capacity : Nat
  count : Nat

/-- `cow_mm_is_broken`. -/
def cowMmIsBroken (t : Cow) (mm page : UInt64) : Except Stuck Bool :=
  if t.capacity = 0 then .ok false
  else do
    let pos ← probe ((cowing.masked t.capacity).find t.tab (mm, pageBase page))
    return (t.tab pos).mm != 0

def cowGrow (t : Cow) (allocated : Bool) : Except Stuck Cow :=
  let capacity := doubled t.capacity 256
  if capacity < t.capacity ∨ sizeMax / 16 < capacity ∨ allocated = false then .error .aborted
  else do
    let tab ← probe ((cowing.masked capacity).rehash cowing.blank t.tab t.capacity)
    return ⟨tab, capacity, t.count⟩

def cowInsert (t : Cow) (mm page : UInt64) : Except Stuck Cow := do
  let pos ← probe ((cowing.masked t.capacity).find t.tab (mm, page))
  if (t.tab pos).mm ≠ 0 then return t
  return { t with tab := Function.update t.tab pos ⟨mm, page⟩, count := t.count + 1 }

/-- `cow_mm_note_break`. -/
def cowMmNoteBreak (t : Cow) (mm page : UInt64) (allocated : Bool) : Except Stuck Cow :=
  if mm = 0 then .error .aborted
  else do
    let t ← if t.capacity = 0 ∨ t.capacity / 2 ≤ t.count then cowGrow t allocated else pure t
    cowInsert t mm (pageBase page)

/-! The two together. -/

structure Source where
  rel : ForkRel
  cow : Cow
  noted : List (UInt64 × UInt64)
  broken : List (UInt64 × UInt64)

def Source.start : Source := ⟨⟨[], 0⟩, ⟨fun _ => cowing.blank, 0, 0⟩, [], []⟩

inductive Label
  | note (cm pm : UInt64) (allocated : Bool)
  | break_ (mm page : UInt64) (allocated : Bool)

def Source.next (s : Source) : Label → Option Source
  | .note cm pm allocated => match forkRelNote s.rel cm pm allocated with
    | .ok rel => some { s with rel := rel, noted := (cm, pm) :: s.noted }
    | .error _ => none
  | .break_ mm page allocated => match cowMmNoteBreak s.cow mm page allocated with
    | .ok cow => some { s with cow := cow, broken := (mm, page) :: s.broken }
    | .error _ => none

abbrev Source.Step : Source → Label → Source → Prop := Computed Source.next

/-! What the lineage keeps. -/

/-- What is noted is recorded, once for each child, and points to a smaller identity. -/
structure ForkRel.Records (rel : ForkRel) (noted : List (UInt64 × UInt64)) : Prop where
  exact_ : ∀ child parent, ⟨child, parent⟩ ∈ rel.rows ↔ (child, parent) ∈ noted
  once : (rel.rows.map Row.child).Nodup
  ordered : ∀ row ∈ rel.rows, row.parent ≠ 0 ∧ row.parent < row.child

variable {rel rel' : ForkRel} {noted : List (UInt64 × UInt64)}

theorem ForkRel.Records.unique (records : rel.Records noted) {first second : Row}
    (one : first ∈ rel.rows) (two : second ∈ rel.rows) (same : first.child = second.child) :
    first = second := inj_on_of_nodup_map records.once one two same

variable {child mm page : UInt64}

theorem find_row {row : Row} (found : rel.rows.find? (fun row => row.child == child) = some row) :
    row ∈ rel.rows ∧ row.child = child := by
  have named := List.find?_some found
  exact ⟨mem_of_find?_eq_some found, eq_of_beq named⟩

theorem ForkRel.Records.parent_iff (records : rel.Records noted) (child : UInt64) {parent : UInt64}
    (real : parent ≠ 0) : forkParentMm rel child = parent ↔ (child, parent) ∈ noted := by
  rw [← records.exact_]
  unfold forkParentMm
  constructor
  · intro answer
    split at answer
    · next row found =>
      obtain ⟨member, named⟩ := find_row found
      subst answer named
      exact member
    · exact absurd answer.symm real
  · intro member
    cases found : rel.rows.find? fun row => row.child == child with
    | none =>
      have missed := List.find?_eq_none.mp found ⟨child, parent⟩ member
      simp at missed
    | some row =>
      obtain ⟨here, named⟩ := find_row found
      exact congrArg Row.parent (records.unique here member named)

theorem ForkRel.Records.note (records : rel.Records noted) {cm pm : UInt64} {allocated : Bool}
    (ran : forkRelNote rel cm pm allocated = .ok rel') : rel'.Records ((cm, pm) :: noted) := by
  unfold forkRelNote at ran
  split at ran
  · cases ran
  next valid =>
  rw [not_or, not_or, UInt64.not_le] at valid
  cases found : rel.rows.find? fun row => row.child == cm with
  | some row =>
    simp only [found] at ran
    split at ran
    · cases ran
    next same =>
    cases ran
    rw [ne_eq, not_not] at same
    obtain ⟨member, named⟩ := find_row found
    have here : (cm, pm) ∈ noted := by
      rw [← records.exact_, ← same, ← named]
      exact member
    refine ⟨fun child parent => ?_, records.once, records.ordered⟩
    rw [records.exact_, mem_cons]
    constructor
    · exact .inr
    · rintro (same | old)
      · exact same ▸ here
      · exact old
  | none =>
    have rows : rel'.rows = rel.rows ++ [⟨cm, pm⟩] := by
      simp only [found] at ran
      split at ran
      · split at ran <;> cases ran
        rfl
      · cases ran
        rfl
    have fresh : cm ∉ rel.rows.map Row.child := by
      intro member
      obtain ⟨row, here, named⟩ := mem_map.mp member
      have missed := List.find?_eq_none.mp found row here
      simp [named] at missed
    refine ⟨?_, ?_, ?_⟩
    · intro child parent
      rw [rows, mem_append, mem_singleton, mem_cons, records.exact_, Row.mk.injEq,
        Prod.mk.injEq, or_comm]
    · rw [rows, map_append, nodup_append]
      refine ⟨records.once, nodup_singleton _, ?_⟩
      intro first member second last same
      have named : first = cm := same.trans (mem_singleton.mp last)
      exact fresh (named ▸ member)
    · intro row member
      rw [rows, mem_append, mem_singleton] at member
      rcases member with old | rfl
      · exact records.ordered row old
      · exact ⟨valid.2.1, valid.2.2⟩

theorem childrenFrom_eq (pm : UInt64) {max : Nat} (rows : List Row) {out : List UInt64}
    (room : out.length ≤ max) :
    childrenFrom pm max rows out =
      if out.length + (rows.filter fun row => row.parent == pm).length ≤ max
      then .ok (out ++ (rows.filter fun row => row.parent == pm).map Row.child)
      else .error .aborted := by
  induction rows generalizing out with
  | nil => simp [childrenFrom, room]
  | cons row rows ih =>
    unfold childrenFrom
    rw [filter_cons]
    by_cases mine : row.parent = pm
    · rw [if_neg (not_not.mpr mine), if_pos (beq_iff_eq.mpr mine), length_cons]
      by_cases full : out.length = max
      · rw [if_pos full, if_neg (by omega)]
      · have longer : (out ++ [row.child]).length = out.length + 1 := length_append
        rw [if_neg full, ih (by omega), longer, map_cons, append_assoc,
          singleton_append, Nat.add_right_comm, Nat.add_assoc]
    · rw [if_pos mine, if_neg (mt beq_iff_eq.mp mine), ih room]

/-! What the broken pages keep. -/

def fact (call : UInt64 × UInt64) : UInt64 × UInt64 := (call.1, pageBase call.2)

def facts (broken : List (UInt64 × UInt64)) : Finset (UInt64 × UInt64) :=
  (broken.map fact).toFinset

theorem mem_facts {broken : List (UInt64 × UInt64)} :
    (mm, pageBase page) ∈ facts broken ↔
      ∃ addr, (mm, addr) ∈ broken ∧ pageBase addr = pageBase page := by
  rw [facts, mem_toFinset, mem_map]
  constructor
  · rintro ⟨⟨other, addr⟩, member, same⟩
    obtain ⟨rfl, based⟩ := Prod.mk.injEq .. ▸ same
    exact ⟨addr, member, based⟩
  · rintro ⟨addr, member, based⟩
    exact ⟨(mm, addr), member, congrArg (Prod.mk mm) based⟩

/-- The table of broken pages holds those of a set. -/
structure Cow.Holds (t : Cow) (held : Finset (UInt64 × UInt64)) : Prop where
  /-- The array is allocated, at most half full and probed from each key's home. -/
  halved : cowing.Halved t.tab t.capacity t.count
  /-- The set is that of its keys. -/
  exact_ : ∀ key, key ∈ held ↔ (cowing.tracked t.tab t.capacity key).isSome = true

theorem cowing_full (e : CowEntry) : cowing.vacant e = !(cowing.key e).isSome := by
  by_cases free : e.mm = 0 <;> simp [cowing, free]

section Pages

variable {t t' : Cow} {held : Finset (UInt64 × UInt64)}

namespace Cow.Holds

section

variable (holds : t.Holds held)
include holds

theorem count_eq : t.count = held.card := by
  rw [← holds.halved.loaded, Hashing.Arrayed.load_eq_keyed cowing_full 0,
    holds.halved.arrayed.keyed_card 0 holds.exact_]

theorem search (allocated : t.capacity ≠ 0) (key : UInt64 × UInt64) :
    ∃ pos, (cowing.masked t.capacity).find t.tab key = some pos ∧
      ((t.tab pos).mm ≠ 0 ↔ key ∈ held) ∧
      (key ∉ held → cowing.tracked t.tab t.capacity key = none ∧
        (cowing.masked t.capacity).place t.tab key = some pos) := by
  obtain ⟨pos, found, ⟨owns, tracked⟩ | ⟨vacant, missing, placed⟩⟩ :=
    holds.halved.search allocated key
  · refine ⟨pos, found, ?_⟩
    have taken : (t.tab pos).mm ≠ 0 := by
      intro free
      simp [cowing, free] at owns
    simp [holds.exact_, tracked, taken]
  · refine ⟨pos, found, ?_⟩
    have free : (t.tab pos).mm = 0 := eq_of_beq vacant
    simp [holds.exact_, missing, free, placed]

theorem is_broken (mm page : UInt64) :
    ∃ answer, cowMmIsBroken t mm page = .ok answer ∧
      (answer = true ↔ (mm, pageBase page) ∈ held) := by
  unfold cowMmIsBroken
  by_cases allocated : t.capacity = 0
  · refine ⟨false, if_pos allocated, ?_⟩
    rw [holds.exact_, allocated, Hashing.tracked_zero]
    simp
  · obtain ⟨pos, found, taken, -⟩ := holds.search allocated (mm, pageBase page)
    rw [if_neg allocated, found]
    refine ⟨(t.tab pos).mm != 0, rfl, ?_⟩
    rw [bne_iff_ne, taken]

theorem grow (allocated : Bool) :
    cowGrow t allocated = .error .aborted ∨
      ∃ t', cowGrow t allocated = .ok t' ∧ t'.Holds held ∧ t'.count < t'.capacity / 2 := by
  unfold cowGrow
  by_cases refused : doubled t.capacity 256 < t.capacity ∨ sizeMax / 16 < doubled t.capacity 256 ∨
      allocated = false
  · exact .inl (if_pos refused)
  right
  have grows : t.capacity ≤ doubled t.capacity 256 := by
    rw [not_or, Nat.not_lt] at refused
    exact refused.1
  have power : 256 = 2 ^ (7 + 1) := rfl
  obtain ⟨tab, rehashed, halved, room, same⟩ := holds.halved.grow cowing_full power grows
  refine ⟨⟨tab, doubled t.capacity 256, t.count⟩, ?_, ⟨halved, fun key => ?_⟩, room⟩
  · rw [if_neg refused, rehashed]
    rfl
  · rw [holds.exact_, ← same]

theorem insert (room : t.count < t.capacity / 2) (real : mm ≠ 0) :
    ∃ t', cowInsert t mm page = .ok t' ∧ t'.Holds (Insert.insert (mm, page) held) := by
  obtain ⟨pos, found, taken, free⟩ := holds.search (by omega) (mm, page)
  unfold cowInsert
  rw [found]
  by_cases member : (mm, page) ∈ held
  · refine ⟨t, if_pos (taken.mpr member), ?_⟩
    rw [Finset.insert_eq_of_mem member]
    exact holds
  obtain ⟨missing, placed⟩ := free member
  have owns : cowing.key ⟨mm, page⟩ = some (mm, page) := if_neg real
  obtain ⟨halved, tracked⟩ := holds.halved.fill room missing placed owns
  refine ⟨_, if_neg (mt taken.mp member), ⟨halved, fun key => ?_⟩⟩
  rw [Finset.mem_insert, holds.exact_]
  change _ ↔ (cowing.tracked (Function.update t.tab pos ⟨mm, page⟩) t.capacity key).isSome = true
  rw [tracked]
  by_cases same : key = (mm, page)
  · simp [same]
  · simp [same]

theorem note_break (mm page : UInt64) (allocated : Bool) :
    cowMmNoteBreak t mm page allocated = .error .aborted ∨
      ∃ t', cowMmNoteBreak t mm page allocated = .ok t' ∧
        t'.Holds (Insert.insert (mm, pageBase page) held) := by
  unfold cowMmNoteBreak
  by_cases real : mm = 0
  · exact .inl (if_pos real)
  rw [if_neg real]
  by_cases full : t.capacity = 0 ∨ t.capacity / 2 ≤ t.count
  · rw [if_pos full]
    rcases holds.grow allocated with failed | ⟨grown, ran, kept, room⟩
    · exact .inl (by rw [failed]; rfl)
    · rw [ran]
      exact .inr (kept.insert room real)
  · rw [if_neg full]
    rw [not_or, Nat.not_le] at full
    exact .inr (holds.insert full.2 real)

end

end Cow.Holds

end Pages

/-! What every run keeps. -/

variable {s s' : Source} {label : Label}

namespace Source

structure Kept (s : Source) : Prop where
  records : s.rel.Records s.noted
  holds : s.cow.Holds (facts s.broken)

theorem Kept.start : Source.start.Kept := by
  refine ⟨⟨?_, nodup_nil, ?_⟩, ⟨Hashing.Halved.zero, ?_⟩⟩
  · intro child parent
    exact iff_of_false not_mem_nil not_mem_nil
  · intro row member
    exact absurd member not_mem_nil
  · intro key
    change key ∈ ∅ ↔ (cowing.tracked _ 0 key).isSome = true
    rw [Hashing.tracked_zero]
    simp

theorem Kept.step (kept : s.Kept) (step : Source.Step s label s') : s'.Kept := by
  unfold Source.Step Computed Source.next at step
  split at step
  · -- A note.
    split at step
    · next rel ran =>
      cases step
      exact ⟨kept.records.note ran, kept.holds⟩
    · cases step
  · -- A break.
    next mm page allocated =>
    rcases kept.holds.note_break mm page allocated with failed | ⟨cow, ran, holds⟩
    · rw [failed] at step
      cases step
    · rw [ran] at step
      cases step
      refine ⟨kept.records, ?_⟩
      have grown : facts ((mm, page) :: s.broken) = insert (mm, pageBase page) (facts s.broken) :=
        toFinset_cons
      rw [grown]
      exact holds

theorem Kept.reached (run : Reach Source.Step Source.start s) : s.Kept :=
  run.invariant (fun _ _ _ kept step => kept.step step) Kept.start

theorem noted_mono (run : Reach Source.Step s s') {pair : UInt64 × UInt64}
    (member : pair ∈ s.noted) : pair ∈ s'.noted := by
  have keeps : ∀ before label after, pair ∈ before.noted → Source.Step before label after →
      pair ∈ after.noted := by
    intro before label after member step
    unfold Source.Step Computed Source.next at step
    split at step <;> split at step <;> cases step
    · exact mem_cons_of_mem _ member
    · exact member
  exact @Reach.invariant _ _ _ _ _ (fun state => pair ∈ state.noted) keeps member run

end Source

/-! The ancestor walk. -/

theorem ForkRel.Records.parent_lt (records : rel.Records noted)
    (some_ : forkParentMm rel child ≠ 0) : forkParentMm rel child < child := by
  have member := (records.exact_ _ _).mpr ((records.parent_iff child some_).mp rfl)
  exact (records.ordered _ member).2

def ancestor (rel : ForkRel) (mm : UInt64) (n : Nat) : UInt64 := (forkParentMm rel)^[n] mm

theorem ForkRel.Records.parent_zero (records : rel.Records noted) : forkParentMm rel 0 = 0 := by
  by_contra some_
  exact absurd (records.parent_lt some_) (UInt64.not_lt_zero)

theorem ForkRel.Records.ancestor_lt (records : rel.Records noted) (mm : UInt64) (n : Nat) :
    ancestor rel mm (n + 1) = 0 ∨ (ancestor rel mm (n + 1)).toNat + n < mm.toNat := by
  induction n with
  | zero =>
    by_cases some_ : ancestor rel mm 1 = 0
    · exact .inl some_
    · exact .inr (UInt64.lt_iff_toNat_lt.mp (records.parent_lt some_))
  | succ n ih =>
    have up : ancestor rel mm (n + 2) = forkParentMm rel (ancestor rel mm (n + 1)) :=
      Function.iterate_succ_apply' _ _ _
    rw [up]
    rcases ih with ended | above
    · rw [ended]
      exact .inl records.parent_zero
    · by_cases some_ : forkParentMm rel (ancestor rel mm (n + 1)) = 0
      · exact .inl some_
      · have below := UInt64.lt_iff_toNat_lt.mp (records.parent_lt some_)
        right
        omega

def ForkRel.children (rel : ForkRel) (pm : UInt64) : List UInt64 :=
  (rel.rows.filter fun row => row.parent == pm).map Row.child

theorem ForkRel.Records.children_spec (records : rel.Records noted) (pm : UInt64) :
    (rel.children pm).Nodup ∧ ∀ child, child ∈ rel.children pm ↔ (child, pm) ∈ noted := by
  constructor
  · exact records.once.sublist (filter_sublist.map Row.child)
  · intro child
    rw [← records.exact_, ForkRel.children, mem_map]
    constructor
    · rintro ⟨⟨named, parent⟩, member, rfl⟩
      obtain ⟨here, mine⟩ := mem_filter.mp member
      cases eq_of_beq mine
      exact here
    · intro member
      exact ⟨⟨child, pm⟩, mem_filter.mpr ⟨member, beq_self_eq_true pm⟩, rfl⟩

/-! The contract. -/

/-- What the lineage of address spaces and their broken pages answer. -/
structure Answers (s : Source) : Prop where
  /-- The parent is the one noted. -/
  parent : ∀ child parent, parent ≠ 0 →
    (forkParentMm s.rel child = parent ↔ (child, parent) ∈ s.noted)
  /-- It stays. -/
  stable : ∀ later, Reach Source.Step s later → ∀ child, forkParentMm s.rel child ≠ 0 →
    forkParentMm later.rel child = forkParentMm s.rel child
  /-- Its identity is smaller. -/
  smaller : ∀ child, forkParentMm s.rel child ≠ 0 → forkParentMm s.rel child < child
  /-- A line of ancestors ends. -/
  finite : ∀ mm, ∃ n, ancestor s.rel mm n = 0
  /-- Nothing is its own ancestor. -/
  acyclic : ∀ mm, mm ≠ 0 → ∀ n, ancestor s.rel mm (n + 1) ≠ mm
  /-- The children are those noted, each once, whenever the batch has room for them. -/
  children : ∀ pm, ∃ list : List UInt64, list.Nodup ∧
    (∀ child, child ∈ list ↔ (child, pm) ∈ s.noted) ∧
    ∀ max, forkRelChildren s.rel pm max =
      if list.length ≤ max then .ok list else .error .aborted
  /-- A page is answered as broken exactly when some break named an address of it. -/
  broken : ∀ mm page, ∃ answer, cowMmIsBroken s.cow mm page = .ok answer ∧
    (answer = true ↔ ∃ addr, (mm, addr) ∈ s.broken ∧ pageBase addr = pageBase page)
  /-- Noting a break ends. -/
  ends : ∀ mm page allocated, cowMmNoteBreak s.cow mm page allocated ≠ .error .diverges
  /-- The count is the number of different pages that were broken. -/
  count : s.cow.count = (facts s.broken).card

/-- In every session the lineage and the broken pages answer what was noted. -/
theorem lineage_answers {s : Source} (run : Reach Source.Step Source.start s) : Answers s := by
  have kept := Source.Kept.reached run
  refine ⟨?_, ?_, ?_, ?_, ?_, ?_, ?_, ?_, kept.holds.count_eq⟩
  · intro child parent real
    exact kept.records.parent_iff child real
  · intro later more child defined
    have now := (kept.records.parent_iff child defined).mp rfl
    have afterwards := Source.Kept.reached (run.trans more)
    exact (afterwards.records.parent_iff child defined).mpr (Source.noted_mono more now)
  · intro child
    exact kept.records.parent_lt
  · intro mm
    refine ⟨mm.toNat + 1, ?_⟩
    rcases kept.records.ancestor_lt mm mm.toNat with ended | above
    · exact ended
    · omega
  · intro mm real n back
    rcases kept.records.ancestor_lt mm n with ended | above
    · exact real (back.symm.trans ended)
    · rw [back] at above
      omega
  · intro pm
    obtain ⟨once, exact_⟩ := kept.records.children_spec pm
    refine ⟨s.rel.children pm, once, exact_, fun max => ?_⟩
    have empty : ([] : List UInt64).length ≤ max := Nat.zero_le max
    have collected := childrenFrom_eq pm s.rel.rows empty
    simpa [forkRelChildren, ForkRel.children] using collected
  · intro mm page
    obtain ⟨answer, asked, exact_⟩ := kept.holds.is_broken mm page
    exact ⟨answer, asked, exact_.trans mem_facts⟩
  · intro mm page allocated diverged
    rcases kept.holds.note_break mm page allocated with failed | ⟨cow, ran, -⟩
    · rw [failed] at diverged
      cases diverged
    · rw [ran] at diverged
      cases diverged

/-- Two generations of forks, with one page broken twice. -/
theorem lineage_answers_forks : ∃ s, Reach Source.Step Source.start s ∧ Answers s ∧
    s.noted = [(9, 4), (4, 2)] ∧ s.broken = [(9, 8200), (9, 8192)] ∧ s.cow.count = 1 := by
  have ran : (exec Source.next Source.start
      [.note 4 2 true, .note 9 4 true, .break_ 9 8192 true, .break_ 9 8200 true]).any
      (fun s => s.noted = [(9, 4), (4, 2)] && s.broken = [(9, 8200), (9, 8192)] &&
        s.cow.count = 1) = true := by decide +kernel
  obtain ⟨s, run, passes⟩ := exec_exhibits ran
  simp only [Bool.and_eq_true, decide_eq_true_eq] at passes
  exact ⟨s, run, lineage_answers run, passes.1.1, passes.1.2, passes.2⟩

end Vmctx.Lineage
