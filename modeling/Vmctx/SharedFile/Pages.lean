import Vmctx.Machine
import Vmctx.System.Run
import Vmctx.Table.Growing
import Vmctx.Table.Reserve
/-!
# Backing slots of shared pages

A session names each page of a shared object by the object's identity and the page's offset, and
gives it one slot of a backing file. Slots are handed out in order, in an array that doubles when
half of it is taken. The descriptor is bound by the first creation, and the file grows with the
slots. Allocation, the file's status and its extension may fail at any call.

`order` lists the pairs by their first success and `log` the calls, latest first; no call reads
them.
-/

namespace Vmctx.SharedPages

open Table Vmctx.System Function List

/-! The table. -/

/-- `struct shared_page_identity`. -/
structure SharedPageIdentity where
  object : UInt64
  offset : UInt64
  slot : Nat
  deriving DecidableEq

def sharedPageHash (object offset : UInt64) : UInt64 :=
  let x : UInt64 := object ^^^ (offset + 0x9e3779b97f4a7c15)
  let x : UInt64 := (x ^^^ (x >>> 30)) * 0xbf58476d1ce4e5b9
  let x : UInt64 := (x ^^^ (x >>> 27)) * 0x94d049bb133111eb
  x ^^^ (x >>> 31)

def paging : Hashing SharedPageIdentity (UInt64 × UInt64) where
  hash key := (sharedPageHash key.1 key.2).toNat
  key e := if e.object = 0 then none else some (e.object, e.offset)
  vacant e := e.object == 0
  blank := ⟨0, 0, 0⟩
  vacant_key _ vacant := if_pos (eq_of_beq vacant)
  blank_vacant := rfl

structure Pages where
  tab : Nat → SharedPageIdentity
  capacity : Nat
  used : Nat
  extent : Nat
  fd : Int
  size : Int → Int

structure Answers where
  calloc : Bool
  fstat : Option Errno
  ftruncate : Option Errno

def int64Max : Nat := 2 ^ 63 - 1

/-- `shared_pages_grow`. -/
def sharedPagesGrow (t : Pages) (env : Answers) : Except Stuck (Except Errno Pages) :=
  let cap := doubled t.capacity 256
  if cap < t.capacity ∨ sizeMax / 24 < cap then .ok (.error .EOVERFLOW)
  else if env.calloc = false then .ok (.error .ENOMEM)
  else do
    let next ← probe ((paging.masked cap).rehash paging.blank t.tab t.capacity)
    return .ok { t with tab := next, capacity := cap }

def sharedPageLookup (t : Pages) (object offset : UInt64) : Except Stuck (Option Nat) :=
  if t.capacity = 0 then .ok none
  else do
    let at_ ← probe ((paging.masked t.capacity).find t.tab (object, offset))
    if (t.tab at_).object = 0 then return none
    return some (t.tab at_).slot

def sharedPagesBind (t : Pages) (fd : Int) (env : Answers) : Except Errno Pages :=
  if t.fd < 0 then
    match env.fstat with
    | some error => .error error
    | none =>
      if t.size fd < 0 then .error .EINVAL
      else .ok { t with extent := (t.size fd).toNat, fd := fd }
  else .ok t

def sharedPagesExtend (t : Pages) (fd : Int) (slot : Nat) (env : Answers) : Except Errno Pages :=
  if t.extent < (slot + 4096) % 2 ^ 64 then
    match env.ftruncate with
    | some error => .error error
    | none => .ok { t with
        extent := (slot + 4096) % 2 ^ 64,
        size := update t.size fd ((slot + 4096) % 2 ^ 64 : Nat) }
  else .ok t

def sharedPagesPut (t : Pages) (object offset : UInt64) (slot : Nat) : Except Stuck Pages := do
  let at_ ← probe ((paging.masked t.capacity).place t.tab (object, offset))
  return { t with tab := update t.tab at_ ⟨object, offset, slot⟩, used := t.used + 1 }

/-- The creation of `shared_page_slot` once the array has room. What was bound before a failure
stays bound. -/
def sharedPagesPlace (t : Pages) (fd : Int) (object offset : UInt64) (env : Answers) :
    Except Stuck (Pages × Except Errno Nat) :=
  match sharedPagesBind t fd env with
  | .error error => .ok (t, .error error)
  | .ok bound =>
    let slot := bound.used * 4096 % 2 ^ 64
    match sharedPagesExtend bound fd slot env with
    | .error error => .ok (bound, .error error)
    | .ok extended => do
      let t ← sharedPagesPut extended object offset slot
      return (t, .ok slot)

def sharedPageCreate (t : Pages) (fd : Int) (object offset : UInt64) (env : Answers) :
    Except Stuck (Pages × Except Errno Nat) :=
  if int64Max / 4096 ≤ t.used then .ok (t, .error .EOVERFLOW)
  else if t.capacity / 2 ≤ t.used then do
    match ← sharedPagesGrow t env with
    | .error error => return (t, .error error)
    | .ok grown => sharedPagesPlace grown fd object offset env
  else sharedPagesPlace t fd object offset env

def malformed (fd : Int) (object offset : UInt64) : Prop :=
  fd < 0 ∨ object = 0 ∨ offset &&& 4095 ≠ 0 ∨ int64Max - 4095 < offset.toNat

instance (fd : Int) (object offset : UInt64) : Decidable (malformed fd object offset) :=
  inferInstanceAs (Decidable (_ ∨ _))

/-- `shared_page_slot`. -/
def sharedPageSlot (t : Pages) (fd : Int) (object offset : UInt64) (create : Bool) (env : Answers) :
    Except Stuck (Pages × Except Errno Nat) :=
  if malformed fd object offset then .ok (t, .error .EINVAL)
  else if 0 ≤ t.fd ∧ t.fd ≠ fd then .ok (t, .error .EINVAL)
  else do
    match ← sharedPageLookup t object offset with
    | some slot => return (t, .ok slot)
    | none =>
      if create = false then return (t, .error .ENOENT)
      else sharedPageCreate t fd object offset env

/-! Sessions. -/

structure Call where
  fd : Int
  object : UInt64
  offset : UInt64
  create : Bool
  result : Except Errno Nat

abbrev Call.pair (call : Call) : UInt64 × UInt64 := (call.object, call.offset)

structure Session where
  pages : Pages
  order : List (UInt64 × UInt64)
  log : List Call

structure Label where
  fd : Int
  object : UInt64
  offset : UInt64
  create : Bool
  env : Answers

def Session.start (size : Int → Int) : Session :=
  ⟨⟨fun _ => paging.blank, 0, 0, 0, -1, size⟩, [], []⟩

def enlist (order : List (UInt64 × UInt64)) (pair : UInt64 × UInt64) (result : Except Errno Nat) :
    List (UInt64 × UInt64) :=
  match result with
  | .ok _ => if pair ∈ order then order else order ++ [pair]
  | .error _ => order

def Session.next (s : Session) (l : Label) : Option Session :=
  match sharedPageSlot s.pages l.fd l.object l.offset l.create l.env with
  | .ok (pages, result) =>
    some ⟨pages, enlist s.order (l.object, l.offset) result,
      ⟨l.fd, l.object, l.offset, l.create, result⟩ :: s.log⟩
  | .error _ => none

abbrev Session.Step : Session → Label → Session → Prop := Computed Session.next

/-! What the table keeps. -/

def Pages.slotOf (t : Pages) (pair : UInt64 × UInt64) : Option Nat :=
  (paging.tracked t.tab t.capacity pair).map SharedPageIdentity.slot

structure Pages.Keeps (t : Pages) (order : List (UInt64 × UInt64)) : Prop where
  halved : paging.Halved t.tab t.capacity t.used
  counted : t.used = order.length
  once : order.Nodup
  slots : ∀ pair slot, t.slotOf pair = some slot ↔
    ∃ i, order[i]? = some pair ∧ slot = i * 4096
  small : t.used ≤ int64Max / 4096
  inside : t.used * 4096 ≤ t.extent
  sized : 0 ≤ t.fd → (t.extent : Int) = t.size t.fd
  unbound : t.fd < 0 → t.used = 0

variable {t t' : Pages} {order : List (UInt64 × UInt64)} {env : Answers} {fd : Int}
  {object offset : UInt64}

theorem paging_full (e : SharedPageIdentity) : paging.vacant e = !(paging.key e).isSome := by
  by_cases free : e.object = 0 <;> simp [paging, free]

variable {pair other : UInt64 × UInt64} {i : Nat} {result : Except Errno Nat}

namespace Pages.Keeps

section

variable (keeps : t.Keeps order)
include keeps

theorem slotOf_eq (other : t'.Keeps order) : t'.slotOf = t.slotOf := by
  funext pair
  ext slot
  rw [keeps.slots, other.slots]

theorem slotOf_none (fresh : pair ∉ order) : t.slotOf pair = none := by
  refine Option.eq_none_iff_forall_ne_some.mpr fun slot held => ?_
  obtain ⟨i, named, -⟩ := (keeps.slots pair slot).mp held
  exact fresh (mem_of_getElem? named)

theorem lookup (object offset : UInt64) :
    sharedPageLookup t object offset = .ok (t.slotOf (object, offset)) := by
  unfold sharedPageLookup
  by_cases allocated : t.capacity = 0
  · rw [if_pos allocated, Pages.slotOf, allocated, Hashing.tracked_zero]
    rfl
  rw [if_neg allocated]
  obtain ⟨pos, found, ⟨owns, tracked⟩ | ⟨vacant, missing, -⟩⟩ :=
    keeps.halved.search allocated (object, offset)
  · have taken : (t.tab pos).object ≠ 0 := by
      intro free
      simp [paging, free] at owns
    rw [found, Pages.slotOf, tracked]
    exact if_neg taken
  · have free : (t.tab pos).object = 0 := eq_of_beq vacant
    rw [found, Pages.slotOf, missing]
    exact if_pos free

theorem grow (env : Answers) :
    (∃ error, sharedPagesGrow t env = .ok (.error error)) ∨
      ∃ t', sharedPagesGrow t env = .ok (.ok t') ∧ t'.Keeps order ∧ t'.used < t'.capacity / 2 ∧
        t'.fd = t.fd ∧ t'.used = t.used := by
  unfold sharedPagesGrow
  by_cases refused : doubled t.capacity 256 < t.capacity ∨ sizeMax / 24 < doubled t.capacity 256
  · exact .inl ⟨_, if_pos refused⟩
  by_cases failed : env.calloc = false
  · exact .inl ⟨.ENOMEM, by rw [if_neg refused, if_pos failed]⟩
  right
  have grows : t.capacity ≤ doubled t.capacity 256 := by
    rw [not_or, Nat.not_lt] at refused
    exact refused.1
  have power : 256 = 2 ^ (7 + 1) := rfl
  obtain ⟨tab, rehashed, halved, room, same⟩ := keeps.halved.grow paging_full power grows
  refine ⟨{ t with tab := tab, capacity := doubled t.capacity 256 }, ?_, ?_, room, rfl, rfl⟩
  · rw [if_neg refused, if_neg failed, rehashed]
    rfl
  · refine ⟨halved, keeps.counted, keeps.once, fun pair slot => ?_, keeps.small, keeps.inside,
      keeps.sized, keeps.unbound⟩
    rw [← keeps.slots]
    change (paging.tracked tab (doubled t.capacity 256) pair).map _ = some slot ↔ _
    rw [same]
    rfl

theorem bind (valid : 0 ≤ fd) (mine : t.fd < 0 ∨ t.fd = fd)
    (bound : sharedPagesBind t fd env = .ok t') :
    t'.Keeps order ∧ t'.fd = fd ∧ t'.tab = t.tab ∧ t'.capacity = t.capacity ∧ t'.used = t.used := by
  unfold sharedPagesBind at bound
  split at bound
  · next unbound =>
    have none_ := keeps.unbound unbound
    split at bound
    · cases bound
    split at bound
    · cases bound
    next positive =>
    cases bound
    refine ⟨⟨keeps.halved, keeps.counted, keeps.once, keeps.slots, keeps.small, ?_, ?_, ?_⟩,
      rfl, rfl, rfl, rfl⟩
    · change t.used * 4096 ≤ (t.size fd).toNat
      omega
    · intro _
      exact Int.toNat_of_nonneg (Int.not_lt.mp positive)
    · intro negative
      exact absurd negative (Int.not_lt.mpr valid)
  · next already =>
    cases bound
    exact ⟨keeps, by omega, rfl, rfl, rfl⟩

theorem extend (mine : t.fd = fd) (room : t.used < int64Max / 4096)
    (extended : sharedPagesExtend t fd (t.used * 4096) env = .ok t') :
    t'.Keeps order ∧ t'.fd = fd ∧ t'.tab = t.tab ∧ t'.capacity = t.capacity ∧
      t'.used = t.used ∧ (t.used + 1) * 4096 ≤ t'.extent := by
  have fits : (t.used * 4096 + 4096) % 2 ^ 64 = (t.used + 1) * 4096 := by
    unfold int64Max at room
    omega
  unfold sharedPagesExtend at extended
  rw [fits] at extended
  split at extended
  · split at extended
    · cases extended
    cases extended
    refine ⟨⟨keeps.halved, keeps.counted, keeps.once, keeps.slots, keeps.small, ?_, ?_,
      keeps.unbound⟩, mine, rfl, rfl, rfl, Nat.le_refl _⟩
    · change t.used * 4096 ≤ (t.used + 1) * 4096
      omega
    · intro _
      change _ = update t.size fd _ t.fd
      rw [mine, update_self]
  · next large =>
    cases extended
    exact ⟨keeps, mine, rfl, rfl, rfl, Nat.not_lt.mp large⟩

end

end Pages.Keeps

theorem getElem?_concat {α : Type} {list : List α} {new x : α} :
    (list ++ [new])[i]? = some x ↔ list[i]? = some x ∨ (i = list.length ∧ x = new) := by
  rcases Nat.lt_trichotomy i list.length with short | rfl | long
  · rw [List.getElem?_append_left short]
    have other : i ≠ list.length := Nat.ne_of_lt short
    simp [other]
  · simp [eq_comm]
  · have other : i ≠ list.length := Nat.ne_of_gt long
    have outside : (list ++ [new]).length ≤ i := by
      rw [length_append, length_singleton]
      omega
    simp [List.getElem?_eq_none outside, List.getElem?_eq_none (Nat.le_of_lt long), other]

namespace Pages.Keeps

theorem put (keeps : t.Keeps order) (room : t.used < t.capacity / 2)
    (small : t.used < int64Max / 4096) (large : (t.used + 1) * 4096 ≤ t.extent) (bound : 0 ≤ t.fd)
    (real : object ≠ 0) (fresh : (object, offset) ∉ order) :
    ∃ t', sharedPagesPut t object offset (t.used * 4096) = .ok t' ∧
      t'.Keeps (order ++ [(object, offset)]) ∧ t'.fd = t.fd := by
  have missing : paging.tracked t.tab t.capacity (object, offset) = none :=
    Option.map_eq_none_iff.mp (keeps.slotOf_none fresh)
  obtain ⟨pos, -, ⟨-, tracked⟩ | ⟨-, -, placed⟩⟩ := keeps.halved.search (by omega) (object, offset)
  · rw [missing] at tracked
    cases tracked
  have owns : paging.key ⟨object, offset, t.used * 4096⟩ = some (object, offset) := if_neg real
  obtain ⟨halved, filled⟩ := keeps.halved.fill room missing placed owns
  unfold sharedPagesPut
  rw [placed]
  refine ⟨_, rfl, ⟨halved, ?_, ?_, ?_, small, large, keeps.sized, ?_⟩, rfl⟩
  · rw [length_append, ← keeps.counted]
    rfl
  · refine nodup_append.mpr ⟨keeps.once, nodup_singleton _, ?_⟩
    intro pair member new last same
    rw [mem_singleton] at last
    exact fresh (last ▸ same ▸ member)
  · intro pair slot
    simp only [getElem?_concat]
    change (paging.tracked (update t.tab pos _) t.capacity pair).map _ = some slot ↔ _
    rw [filled]
    by_cases same : pair = (object, offset)
    · subst same
      have none_ : ∀ i, order[i]? ≠ some (object, offset) :=
        fun i named => fresh (mem_of_getElem? named)
      simp [none_, keeps.counted, eq_comm]
    · rw [update_of_ne same]
      simp only [same, and_false, or_false]
      exact keeps.slots pair slot
  · intro negative
    exact absurd negative (Int.not_lt.mpr bound)

end Pages.Keeps

/-! What one call does. -/

structure Outcome (t : Pages) (order : List (UInt64 × UInt64)) (pair : UInt64 × UInt64)
    (t' : Pages) (result : Except Errno Nat) : Prop where
  keeps : t'.Keeps (enlist order pair result)
  answers : ∀ slot, result = .ok slot →
    ∃ i, (enlist order pair result)[i]? = some pair ∧ slot = i * 4096
  bound : 0 ≤ t.fd → t'.fd = t.fd

theorem Outcome.failed (keeps : t'.Keeps order) (bound : 0 ≤ t.fd → t'.fd = t.fd) (error : Errno) :
    Outcome t order pair t' (.error error) :=
  ⟨keeps, fun _ ok => absurd ok (by simp), bound⟩

namespace Pages.Keeps

theorem place (keeps : t.Keeps order) (room : t.used < t.capacity / 2)
    (small : t.used < int64Max / 4096) (valid : ¬ malformed fd object offset)
    (mine : t.fd < 0 ∨ t.fd = fd) (fresh : (object, offset) ∉ order) (env : Answers) :
    ∃ t' result, sharedPagesPlace t fd object offset env = .ok (t', result) ∧
      Outcome t order (object, offset) t' result := by
  simp only [malformed, not_or] at valid
  have real : 0 ≤ fd := Int.not_lt.mp valid.1
  unfold sharedPagesPlace
  cases bound : sharedPagesBind t fd env with
  | error error => exact ⟨t, _, rfl, .failed keeps (fun _ => rfl) error⟩
  | ok b =>
    obtain ⟨kept, named, tab, capacity, used⟩ := keeps.bind real mine bound
    have stays : 0 ≤ t.fd → b.fd = t.fd := by omega
    have slot : b.used * 4096 % 2 ^ 64 = b.used * 4096 := by
      unfold int64Max at small
      omega
    simp only [slot]
    cases extended : sharedPagesExtend b fd (b.used * 4096) env with
    | error error => exact ⟨b, _, rfl, .failed kept stays error⟩
    | ok e =>
      obtain ⟨still, same, tab', capacity', used', large⟩ :=
        kept.extend named (by omega) extended
      have roomy : e.used < e.capacity / 2 := by omega
      have few : e.used < int64Max / 4096 := by rwa [used', used]
      have covers : (e.used + 1) * 4096 ≤ e.extent := by rwa [used']
      have open_ : 0 ≤ e.fd := by rwa [same]
      obtain ⟨t', ran, final, last⟩ := still.put roomy few covers open_ valid.2.1 fresh
      rw [used'] at ran
      refine ⟨t', .ok (b.used * 4096), ?_, ?_, ?_, ?_⟩
      · simp only [ran]
        rfl
      · simpa only [enlist, fresh, if_false] using final
      · intro slot ok
        cases ok
        refine ⟨order.length, ?_, by rw [kept.counted]⟩
        simp [enlist, fresh]
      · omega

theorem create (keeps : t.Keeps order) (valid : ¬ malformed fd object offset)
    (mine : t.fd < 0 ∨ t.fd = fd) (fresh : (object, offset) ∉ order) (env : Answers) :
    ∃ t' result, sharedPageCreate t fd object offset env = .ok (t', result) ∧
      Outcome t order (object, offset) t' result := by
  unfold sharedPageCreate
  by_cases full : int64Max / 4096 ≤ t.used
  · exact ⟨t, _, if_pos full, .failed keeps (fun _ => rfl) _⟩
  have small : t.used < int64Max / 4096 := Nat.not_le.mp full
  rw [if_neg full]
  by_cases half : t.capacity / 2 ≤ t.used
  · rw [if_pos half]
    rcases keeps.grow env with ⟨error, failed⟩ | ⟨grown, ran, kept, room, descriptor, used⟩
    · rw [failed]
      exact ⟨t, _, rfl, .failed keeps (fun _ => rfl) error⟩
    · rw [ran]
      obtain ⟨t', result, placed, outcome⟩ := kept.place room (by omega) valid (by omega) fresh env
      refine ⟨t', result, placed, outcome.keeps, outcome.answers, ?_⟩
      rw [← descriptor]
      exact outcome.bound
  · rw [if_neg half]
    exact keeps.place (Nat.not_le.mp half) small valid mine fresh env

theorem hit (keeps : t.Keeps order) (valid : ¬ malformed fd object offset)
    (mine : t.fd < 0 ∨ t.fd = fd) (create : Bool) (env : Answers)
    (named : order[i]? = some (object, offset)) :
    sharedPageSlot t fd object offset create env = .ok (t, .ok (i * 4096)) := by
  have held : t.slotOf (object, offset) = some (i * 4096) :=
    (keeps.slots _ _).mpr ⟨i, named, rfl⟩
  have bound : ¬ (0 ≤ t.fd ∧ t.fd ≠ fd) := by omega
  rw [sharedPageSlot, if_neg valid, if_neg bound, keeps.lookup, held]
  rfl

theorem slot (keeps : t.Keeps order) (fd : Int) (object offset : UInt64) (create : Bool)
    (env : Answers) :
    ∃ t' result, sharedPageSlot t fd object offset create env = .ok (t', result) ∧
      Outcome t order (object, offset) t' result ∧
      (create = false → enlist order (object, offset) result = order) := by
  by_cases invalid : malformed fd object offset
  · exact ⟨t, _, if_pos invalid, .failed keeps (fun _ => rfl) _, fun _ => rfl⟩
  by_cases other : 0 ≤ t.fd ∧ t.fd ≠ fd
  · refine ⟨t, .error .EINVAL, ?_, .failed keeps (fun _ => rfl) _, fun _ => rfl⟩
    rw [sharedPageSlot, if_neg invalid, if_pos other]
  have mine : t.fd < 0 ∨ t.fd = fd := by omega
  by_cases member : (object, offset) ∈ order
  · obtain ⟨i, named⟩ := List.getElem?_of_mem member
    have same : enlist order (object, offset) (.ok (i * 4096)) = order := if_pos member
    refine ⟨t, _, keeps.hit invalid mine create env named, ⟨?_, ?_, fun _ => rfl⟩, fun _ => same⟩
    · rw [same]
      exact keeps
    · intro slot ok
      cases ok
      rw [same]
      exact ⟨i, named, rfl⟩
  · rw [sharedPageSlot, if_neg invalid, if_neg other, keeps.lookup, keeps.slotOf_none member]
    cases create with
    | false => exact ⟨t, _, rfl, .failed keeps (fun _ => rfl) _, fun _ => rfl⟩
    | true =>
      obtain ⟨t', result, ran, outcome⟩ := keeps.create invalid mine member env
      exact ⟨t', result, ran, outcome, fun no => by cases no⟩

end Pages.Keeps

/-! What every session keeps. -/

abbrev Label.call (l : Label) (result : Except Errno Nat) : Call :=
  ⟨l.fd, l.object, l.offset, l.create, result⟩

structure Session.Kept (s : Session) : Prop where
  keeps : s.pages.Keeps s.order
  answered : ∀ call ∈ s.log, ∀ slot, call.result = .ok slot →
    ∃ i, s.order[i]? = some call.pair ∧ slot = i * 4096
  created : ∀ pair ∈ s.order, ∃ call ∈ s.log, call.pair = pair ∧ call.create = true ∧
    ∃ slot, call.result = .ok slot

variable {s s' : Session} {l : Label}

theorem enlist_getElem? (named : order[i]? = some other) :
    (enlist order pair result)[i]? = some other := by
  unfold enlist
  split
  · split
    · exact named
    · exact getElem?_concat.mpr (.inl named)
  · exact named

theorem mem_enlist (member : other ∈ enlist order pair result) :
    other ∈ order ∨ (other = pair ∧ pair ∉ order ∧ ∃ slot, result = .ok slot) := by
  unfold enlist at member
  split at member
  · next slot =>
    split at member
    · exact .inl member
    · next fresh =>
      rcases mem_append.mp member with old | new
      · exact .inl old
      · exact .inr ⟨mem_singleton.mp new, fresh, slot, rfl⟩
  · exact .inl member

theorem Session.Kept.inversion (kept : s.Kept) (l : Label) :
    ∃ t' result, sharedPageSlot s.pages l.fd l.object l.offset l.create l.env = .ok (t', result) ∧
      Session.Step s l ⟨t', enlist s.order (l.object, l.offset) result, l.call result :: s.log⟩ ∧
      Outcome s.pages s.order (l.object, l.offset) t' result ∧
      (l.create = false → enlist s.order (l.object, l.offset) result = s.order) := by
  obtain ⟨t', result, ran, outcome, idle⟩ :=
    kept.keeps.slot l.fd l.object l.offset l.create l.env
  refine ⟨t', result, ran, ?_, outcome, idle⟩
  rw [Session.Step, Computed, Session.next, ran]

theorem Session.Kept.step (kept : s.Kept) (step : Session.Step s l s') : s'.Kept := by
  obtain ⟨t', result, -, ran, outcome, idle⟩ := kept.inversion l
  cases (Option.some.inj (step.symm.trans ran) : s' = _)
  refine ⟨outcome.keeps, ?_, ?_⟩
  · intro call member slot ok
    rcases mem_cons.mp member with rfl | old
    · exact outcome.answers slot ok
    · obtain ⟨i, named, same⟩ := kept.answered call old slot ok
      exact ⟨i, enlist_getElem? named, same⟩
  · intro pair member
    rcases mem_enlist member with old | ⟨rfl, fresh, ok⟩
    · obtain ⟨call, logged, facts⟩ := kept.created pair old
      exact ⟨call, mem_cons_of_mem _ logged, facts⟩
    · refine ⟨l.call result, mem_cons_self, rfl, ?_, ok⟩
      by_contra lookup
      rw [Bool.not_eq_true] at lookup
      exact fresh (idle lookup ▸ member)

theorem Session.Kept.start (size : Int → Int) : (Session.start size).Kept := by
  have none_ : 0 * 4096 ≤ 0 := by decide
  refine ⟨⟨Hashing.Halved.zero, rfl, nodup_nil, ?_, Nat.zero_le _, none_, ?_, fun _ => rfl⟩,
    ?_, ?_⟩
  · intro pair slot
    change (paging.tracked _ 0 pair).map _ = some slot ↔ _
    rw [Hashing.tracked_zero]
    simp [Session.start]
  · intro bound
    change (0 : Int) ≤ -1 at bound
    omega
  · intro call member
    exact absurd member not_mem_nil
  · intro pair member
    exact absurd member not_mem_nil

theorem Session.Kept.reached {size : Int → Int}
    (run : Reach Session.Step (Session.start size) s) : s.Kept :=
  run.invariant (fun _ _ _ kept step => kept.step step) (Kept.start size)

/-! The contract. -/

/-- What the slots of an object's pages are. -/
structure Stable (s : Session) : Prop where
  /-- Every call returns. -/
  returns : ∀ l, ∃ s', Session.Step s l s'
  /-- Successes on one pair answer one slot, and on different pairs different slots. -/
  injective : ∀ a ∈ s.log, ∀ b ∈ s.log, ∀ x y, a.result = .ok x → b.result = .ok y →
    (a.pair = b.pair ↔ x = y)
  /-- The slots handed out follow the order of the first successes, each of which created. -/
  ordered : s.order.Nodup ∧
    (∀ call ∈ s.log, ∀ slot, call.result = .ok slot →
      ∃ i, s.order[i]? = some call.pair ∧ slot = i * 4096) ∧
    ∀ pair ∈ s.order, ∃ call ∈ s.log, call.pair = pair ∧ call.create = true ∧
      ∃ slot, call.result = .ok slot
  /-- A pair that has a slot gets it from every later call on the descriptor. -/
  later : ∀ l s', Session.Step s l s' → ¬ malformed l.fd l.object l.offset →
    l.fd = s.pages.fd → ∀ i, s.order[i]? = some (l.object, l.offset) →
    s'.log = l.call (.ok (i * 4096)) :: s.log ∧ s'.pages = s.pages
  /-- Every slot lies inside the extent, which is the size of the file. -/
  inside : ∀ i < s.order.length, (i + 1) * 4096 ≤ s.pages.extent ∧
    (s.pages.extent : Int) = s.pages.size s.pages.fd
  /-- A failed call, and a call that may not create, adds no pair and changes no slot. -/
  frozen : ∀ l s', Session.Step s l s' →
    (l.create = false ∨ ∃ error, s'.log = l.call (.error error) :: s.log) →
    s'.order = s.order ∧ s'.pages.slotOf = s.pages.slotOf
  /-- An array has a free entry, where a probe ends. -/
  free : s.pages.capacity ≠ 0 → ∃ pos < s.pages.capacity, (s.pages.tab pos).object = 0
  /-- A call on another descriptor fails, and changes nothing. -/
  refused : ∀ l s', Session.Step s l s' → 0 ≤ s.pages.fd → l.fd ≠ s.pages.fd →
    s'.pages = s.pages ∧ s'.log = l.call (.error .EINVAL) :: s.log

theorem Pages.Keeps.free (keeps : t.Keeps order) (allocated : t.capacity ≠ 0) :
    ∃ pos < t.capacity, (t.tab pos).object = 0 := by
  have half := keeps.halved.half
  have short : (paging.masked t.capacity).load t.tab < t.capacity := by
    rw [keeps.halved.loaded]
    omega
  obtain ⟨pos, inside, vacant⟩ := Scheme.room_of_load short
  exact ⟨pos, inside, eq_of_beq vacant⟩

/-- In every session a page of an object keeps the slot it was given, and shares it with no other.
-/
theorem shared_page_slots_stable {size : Int → Int} {s : Session}
    (run : Reach Session.Step (Session.start size) s) : Stable s := by
  have kept := Session.Kept.reached run
  refine ⟨?_, ?_, ⟨kept.keeps.once, kept.answered, kept.created⟩, ?_, ?_, ?_, kept.keeps.free, ?_⟩
  · intro l
    obtain ⟨t', result, -, ran, -⟩ := kept.inversion l
    exact ⟨_, ran⟩
  · intro a first b second x y okA okB
    obtain ⟨i, namedA, rfl⟩ := kept.answered a first x okA
    obtain ⟨j, namedB, rfl⟩ := kept.answered b second y okB
    constructor
    · intro same
      rw [← same] at namedB
      have short := (List.getElem?_eq_some_iff.mp namedA).1
      rw [(List.getElem?_inj short kept.keeps.once).mp (namedA.trans namedB.symm)]
    · intro same
      have index : i = j := by omega
      subst index
      exact Option.some.inj (namedA.symm.trans namedB)
  · intro l s' step valid descriptor i named
    have hit := kept.keeps.hit valid (.inr descriptor.symm) l.create l.env named
    rw [Session.Step, Computed, Session.next, hit] at step
    cases step
    exact ⟨rfl, rfl⟩
  · intro i short
    rw [← kept.keeps.counted] at short
    have covered : (i + 1) * 4096 ≤ s.pages.used * 4096 := Nat.mul_le_mul_right 4096 short
    refine ⟨covered.trans kept.keeps.inside, kept.keeps.sized ?_⟩
    by_contra negative
    have none_ := kept.keeps.unbound (Int.not_le.mp negative)
    omega
  · intro l s' step condition
    obtain ⟨t', result, -, ran, outcome, idle⟩ := kept.inversion l
    cases (Option.some.inj (step.symm.trans ran) : s' = _)
    have same : enlist s.order (l.object, l.offset) result = s.order := by
      rcases condition with lookup | ⟨error, logged⟩
      · exact idle lookup
      · obtain ⟨failed, -⟩ := List.cons.inj logged
        have was : result = .error error := congrArg Call.result failed
        rw [was]
        rfl
    refine ⟨same, kept.keeps.slotOf_eq ?_⟩
    have keeps := outcome.keeps
    rwa [same] at keeps
  · intro l s' step bound other
    rw [Session.Step, Computed, Session.next, sharedPageSlot] at step
    split at step
    · next t' result ran =>
      split at ran
      · cases ran
        cases step
        exact ⟨rfl, rfl⟩
      · rw [if_pos ⟨bound, other.symm⟩] at ran
        cases ran
        cases step
        exact ⟨rfl, rfl⟩
    · cases step

/-- Two pages of an object get slots, one of them on its second attempt. -/
theorem shared_page_slots_stable_pages : ∃ s : Session,
    Reach Session.Step (Session.start fun _ => 0) s ∧ Stable s ∧
    s.order = [(7, 0), (7, 8192)] ∧ s.pages.extent = 8192 ∧ s.log.length = 5 := by
  have ran : (exec Session.next (Session.start fun _ => 0)
      [⟨3, 7, 0, true, ⟨true, none, none⟩⟩, ⟨4, 7, 4096, true, ⟨true, none, none⟩⟩,
        ⟨3, 7, 8192, true, ⟨true, none, some .ENOMEM⟩⟩, ⟨3, 7, 8192, true, ⟨true, none, none⟩⟩,
        ⟨3, 7, 0, false, ⟨false, none, none⟩⟩]).any
      (fun s => s.order = [(7, 0), (7, 8192)] && s.pages.extent = 8192 && s.log.length = 5) =
      true := by decide +kernel
  obtain ⟨s, run, passes⟩ := exec_exhibits ran
  simp only [Bool.and_eq_true, decide_eq_true_eq] at passes
  exact ⟨s, run, shared_page_slots_stable run, passes.1.1, passes.1.2, passes.2⟩

end Vmctx.SharedPages
