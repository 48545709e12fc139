import Vmctx.Machine
import Vmctx.Table.Growing
/-!
# The page-transfer table

`pgstate.h` keeps one slot per address space and page in an open-addressed array that doubles when
it is half full. A slot names the state of the page's transfer and counts its episodes. A claim
names one episode. Allocation is taken to succeed; the two `abort` calls that remain, the size limit
of the array and the exhaustion of an episode counter, end the process, and a probe loop that never
meets a free slot would not return. `Halt` keeps the two apart, and `WellFormed` is what rules the
second one out.
-/

namespace Vmctx.PageTransfer

open Table Function

/-- The states of a page's transfer, `enum pg_st`. -/
inductive PgSt
  | invalid | shared | owned | uninstalling | transferring | downgrading | requesting
  deriving DecidableEq, Repr

def PgSt.code : PgSt → Int
  | invalid => 0
  | shared => 1
  | owned => 2
  | uninstalling => 3
  | transferring => 4
  | downgrading => 5
  | requesting => 6

/-- The enumerator with a value. A caller may pass an `enum pg_st` that names none. -/
def PgSt.ofCode? (code : Int) : Option PgSt :=
  [invalid, shared, owned, uninstalling, transferring, downgrading, requesting].find?
    fun st => st.code = code

/-- `pg_transient`. -/
def pgTransient (code : Int) : Bool := decide (PgSt.uninstalling.code ≤ code)

/-- `struct pg_slot`. -/
structure PgSlot where
  as : UInt64
  page : UInt64
  episode : UInt64
  st : PgSt
  used : Bool
  deriving DecidableEq

def PgSlot.zero : PgSlot := ⟨0, 0, 0, .invalid, false⟩

/-- `struct pg_claim`. -/
structure PgClaim where
  as : UInt64
  page : UInt64
  episode : UInt64
  prior : PgSt
  deriving DecidableEq

structure PgKey where
  as : UInt64
  page : UInt64
  deriving DecidableEq

def PgKey.of (as page : UInt64) : PgKey := ⟨as, pageBase page⟩

@[simp] theorem PgKey.of_base (as page : UInt64) :
    PgKey.of as (pageBase page) = PgKey.of as page := by
  simp only [PgKey.of, pageBase, PgKey.mk.injEq, true_and]
  rw [UInt64.and_assoc, UInt64.and_self]

/-- The table, `pgstate_tab` with its capacity, its number of taken slots and of growths. -/
structure PgTable where
  tab : Nat → PgSlot
  capacity : Nat
  used : Nat
  grows : UInt64

def PgTable.start : PgTable := ⟨fun _ => .zero, 0, 0, 0⟩

inductive Halt
  | aborted
  | diverges
  | faulted
  deriving DecidableEq

def pgSlotHash (as page : UInt64) : UInt64 :=
  let h : UInt64 :=
    as * (1099511628211 : UInt64) ^^^ (page >>> 12) * (14695981039346656037 : UInt64)
  let h : UInt64 := h ^^^ (h >>> 33)
  let h : UInt64 := h * (0xff51afd7ed558ccd : UInt64)
  h ^^^ (h >>> 33)

def tracking : Hashing PgSlot PgKey where
  hash key := (pgSlotHash key.as key.page).toNat
  key slot := if slot.used then some ⟨slot.as, slot.page⟩ else none
  vacant slot := !slot.used
  blank := .zero
  vacant_key slot vacant := if_neg (by simpa using vacant)
  blank_vacant := rfl

def pgstateN : Nat := 8192

/-- The largest capacity that may still be doubled, `SIZE_MAX / 2 / sizeof(struct pg_slot)`. -/
def pgstateLimit : Nat := (2 ^ 64 - 1) / 2 / 32

def search {α : Type} (found : Option α) : Except Halt α :=
  match found with
  | some value => .ok value
  | none => .error .diverges

/-- `pgstate_grow`. -/
def pgstateGrow (t : PgTable) : Except Halt PgTable :=
  if pgstateLimit < t.capacity then .error .aborted
  else do
    let cap := doubled t.capacity pgstateN
    let next ← search ((tracking.masked cap).rehash tracking.blank t.tab t.capacity)
    return ⟨next, cap, t.used, t.grows + 1⟩

/-- Take the free position a probe ended at for a key, growing first when half the array is
taken. -/
def pgSlotCreate (t : PgTable) (key : PgKey) (pos : Nat) : Except Halt (PgTable × Nat) := do
  let (t, pos) ←
    if t.capacity / 2 ≤ t.used then do
      let t ← pgstateGrow t
      let pos ← search ((tracking.masked t.capacity).place t.tab key)
      pure (t, pos)
    else pure (t, pos)
  let slot : PgSlot := ⟨key.as, key.page, 0, .invalid, true⟩
  return ({ t with tab := update t.tab pos slot, used := t.used + 1 }, pos)

/-- `pg_slot_find`. -/
def pgSlotFind (t : PgTable) (as page : UInt64) (create : Bool) :
    Except Halt (PgTable × Option Nat) :=
  let key := PgKey.of as page
  if t.capacity = 0 ∧ create = false then .ok (t, none)
  else do
    let t ← if t.capacity = 0 then pgstateGrow t else pure t
    let pos ← search ((tracking.masked t.capacity).find t.tab key)
    if (t.tab pos).used then return (t, some pos)
    if create = false then return (t, none)
    let (t, pos) ← pgSlotCreate t key pos
    return (t, some pos)

def PgTable.tracked (t : PgTable) : PgKey → Option PgSlot := tracking.tracked t.tab t.capacity

/-- A table between two calls: nothing is allocated, or a power of two slots are, at most half of
them taken and every one of those found by its own search. -/
abbrev PgTable.WellFormed (t : PgTable) : Prop := tracking.Halved t.tab t.capacity t.used

theorem tracking_full (slot : PgSlot) : tracking.vacant slot = !(tracking.key slot).isSome := by
  cases used : slot.used <;> simp [tracking, used]

variable {t : PgTable} {key : PgKey} {pos : Nat}

theorem tracked_zero (zero : t.capacity = 0) (key : PgKey) : t.tracked key = none := by
  rw [PgTable.tracked, zero, Hashing.tracked_zero]

theorem start_wellFormed : PgTable.start.WellFormed := Hashing.Halved.zero

/-- A growth at the allowed sizes returns a well-formed table with the same slots and room for one
more within its half. -/
theorem pgstateGrow_spec (wf : t.WellFormed) (small : t.capacity ≤ pgstateLimit) :
    ∃ t', pgstateGrow t = .ok t' ∧ t'.WellFormed ∧ t'.used < t'.capacity / 2 ∧
      t'.tracked = t.tracked := by
  have power : pgstateN = 2 ^ (12 + 1) := rfl
  have grows : t.capacity ≤ doubled t.capacity pgstateN := by
    unfold pgstateLimit at small
    unfold doubled
    split <;> omega
  obtain ⟨tab, rehashed, halved, room, same⟩ := wf.grow tracking_full power grows
  refine ⟨⟨tab, doubled t.capacity pgstateN, t.used, t.grows + 1⟩, ?_, halved, room, same⟩
  simp only [pgstateGrow, if_neg (Nat.not_lt.mpr small), rehashed]
  rfl

def PgSlot.fresh (key : PgKey) : PgSlot := ⟨key.as, key.page, 0, .invalid, true⟩

/-- Taking a free position tracks the key with a fresh slot and disturbs no other key, unless the
array is at its size limit. -/
theorem pgSlotCreate_spec (wf : t.WellFormed) (missing : t.tracked key = none)
    (placed : (tracking.masked t.capacity).place t.tab key = some pos) :
    pgSlotCreate t key pos = .error .aborted ∨
      ∃ t' pos', pgSlotCreate t key pos = .ok (t', pos') ∧ t'.WellFormed ∧
        pos' < t'.capacity ∧ t'.tab pos' = PgSlot.fresh key ∧
        t'.tracked = update t.tracked key (some (PgSlot.fresh key)) := by
  have owns : tracking.key (PgSlot.fresh key) = some key := rfl
  by_cases full : t.capacity / 2 ≤ t.used
  · by_cases small : t.capacity ≤ pgstateLimit
    · obtain ⟨g, grown, gwf, room, same⟩ := pgstateGrow_spec wf small
      have gmissing : g.tracked key = none := by rw [same, missing]
      obtain ⟨gpos, gfound, ⟨-, held⟩ | ⟨-, -, gplaced⟩⟩ := gwf.search (by omega) key
      · cases gmissing.symm.trans held
      obtain ⟨stored, storedTracked⟩ := gwf.fill room gmissing gplaced owns
      have sound := gwf.arrayed.sound (by omega)
      refine .inr ⟨{ g with tab := update g.tab gpos (.fresh key), used := g.used + 1 }, gpos, ?_,
        stored, (sound.law.place_spec gplaced).1, update_self .., ?_⟩
      · simp only [pgSlotCreate, if_pos full, grown, bind, Except.bind, gplaced]
        rfl
      · rw [← same]
        exact storedTracked
    · left
      simp only [pgSlotCreate, if_pos full, pgstateGrow, if_pos (Nat.lt_of_not_le small)]
      rfl
  · obtain ⟨stored, storedTracked⟩ := wf.fill (Nat.lt_of_not_le full) missing placed owns
    have sound := wf.arrayed.sound (by omega)
    refine .inr ⟨{ t with tab := update t.tab pos (.fresh key), used := t.used + 1 }, pos, ?_,
      stored, (sound.law.place_spec placed).1, update_self .., storedTracked⟩
    simp only [pgSlotCreate, if_neg full]
    rfl

theorem used_of_key {slot : PgSlot} (owns : tracking.key slot = some key) : slot.used = true := by
  cases used : slot.used
  · simp [tracking, used] at owns
  · rfl

theorem pgSlotFind_lookup (wf : t.WellFormed) (as page : UInt64) :
    (∃ pos, pgSlotFind t as page false = .ok (t, some pos) ∧ pos < t.capacity ∧
        tracking.key (t.tab pos) = some (PgKey.of as page) ∧
        t.tracked (PgKey.of as page) = some (t.tab pos)) ∨
      (pgSlotFind t as page false = .ok (t, none) ∧ t.tracked (PgKey.of as page) = none) := by
  by_cases zero : t.capacity = 0
  · exact .inr ⟨by simp [pgSlotFind, zero], tracked_zero zero _⟩
  obtain ⟨pos, found, ⟨held, tracked⟩ | ⟨vacant, missing, -⟩⟩ := wf.search zero (PgKey.of as page)
  · refine .inl ⟨pos, ?_, (wf.arrayed.find_cases zero found).1, held, tracked⟩
    simp [pgSlotFind, zero, found, search, used_of_key held, bind, Except.bind, pure, Except.pure]
  · have unused : (t.tab pos).used = false := by simpa [tracking] using vacant
    refine .inr ⟨?_, missing⟩
    simp [pgSlotFind, zero, found, search, unused, bind, Except.bind, pure, Except.pure]

/-- What a search with creation leaves: a well-formed table with the key's slot at a position,
either the slot that was tracked or a fresh one, and every other key as before. -/
structure Created (t : PgTable) (key : PgKey) (t' : PgTable) (pos : Nat) : Prop where
  wf : t'.WellFormed
  inside : pos < t'.capacity
  held : tracking.key (t'.tab pos) = some key
  tracked : t'.tracked = update t.tracked key (some (t'.tab pos))
  origin : t.tracked key = some (t'.tab pos) ∨
    t.tracked key = none ∧ t'.tab pos = PgSlot.fresh key

private theorem pgSlotFind_allocated (wf : t.WellFormed) (allocated : t.capacity ≠ 0)
    (as page : UInt64) :
    pgSlotFind t as page true = .error .aborted ∨
      ∃ t' pos, pgSlotFind t as page true = .ok (t', some pos) ∧
        Created t (PgKey.of as page) t' pos := by
  obtain ⟨pos, found, ⟨held, tracked⟩ | ⟨vacant, missing, placed⟩⟩ :=
    wf.search allocated (PgKey.of as page)
  · have inside := (wf.arrayed.find_cases allocated found).1
    refine .inr ⟨t, pos, ?_, wf, inside, held, ?_, .inl tracked⟩
    · simp [pgSlotFind, allocated, found, search, used_of_key held, bind, Except.bind, pure,
        Except.pure]
    · rw [← show t.tracked _ = _ from tracked, update_eq_self]
  · have unused : (t.tab pos).used = false := by simpa [tracking] using vacant
    have unfolded : pgSlotFind t as page true =
        (pgSlotCreate t (PgKey.of as page) pos).bind fun made => .ok (made.1, some made.2) := by
      simp [pgSlotFind, allocated, found, search, unused, bind, Except.bind, pure, Except.pure]
    obtain failed | ⟨t', pos', made, wf', inside', stored, tracked'⟩ :=
      pgSlotCreate_spec wf missing placed
    · exact .inl (by rw [unfolded, failed]; rfl)
    · refine .inr ⟨t', pos', by rw [unfolded, made]; rfl, wf', inside', ?_, ?_,
        .inr ⟨missing, stored⟩⟩
      · rw [stored]
        rfl
      · rw [tracked', stored]

/-- A search with creation returns the tracked slot or a fresh one, and disturbs no other key. It
fails only by the size limit. -/
theorem pgSlotFind_create (wf : t.WellFormed) (as page : UInt64) :
    pgSlotFind t as page true = .error .aborted ∨
      ∃ t' pos, pgSlotFind t as page true = .ok (t', some pos) ∧
        Created t (PgKey.of as page) t' pos := by
  by_cases allocated : t.capacity = 0
  · -- The first allocation, after which the search runs in the grown table.
    obtain ⟨g, grown, gwf, room, gtracked⟩ :=
      pgstateGrow_spec wf (by rw [allocated]; exact Nat.zero_le _)
    have gallocated : g.capacity ≠ 0 := by omega
    have unfolded : pgSlotFind t as page true = pgSlotFind g as page true := by
      simp [pgSlotFind, allocated, gallocated, grown, bind, Except.bind, pure, Except.pure]
    rw [unfolded]
    obtain failed | ⟨t', pos, made, created⟩ := pgSlotFind_allocated gwf gallocated as page
    · exact .inl failed
    · refine .inr ⟨t', pos, made, { created with tracked := ?_, origin := ?_ }⟩
      · rw [← gtracked]
        exact created.tracked
      · rw [← gtracked]
        exact created.origin
  · exact pgSlotFind_allocated wf allocated as page

/-- Rewriting the tracked slot of a key in place keeps the table well formed and changes what is
tracked under that key only. -/
theorem rewrite_spec {slot : PgSlot} (wf : t.WellFormed) (inside : pos < t.capacity)
    (held : tracking.key (t.tab pos) = some key) (owns : tracking.key slot = some key) :
    let t' : PgTable := { t with tab := update t.tab pos slot }
    t'.WellFormed ∧ t'.tracked = update t.tracked key (some slot) := wf.replace inside held owns

end Vmctx.PageTransfer
