import Vmctx.Machine
import Vmctx.System.Run
import Vmctx.Table.Reserve
import Vmctx.Table.Reusing
/-!
# The installed pages of the executor

The executor records which pages of which contexts it has installed, in an array that is searched
from a hash of the two. A removed record leaves a tombstone, which a later insertion may take. When
half of the slots are not empty the array is rehashed, into one of the same size if less than a
quarter of it is live and into one of twice the size otherwise. A failed allocation ends the
process.

The table is compared with a finite set. A session carries the set beside the table, and logs what
each call answered and what the set would have answered; no call reads them.
-/

namespace Vmctx.Installed

open Table Vmctx.System Function

/-! The table. -/

/-- `enum installed_state`. -/
inductive InstalledState
  | INST_EMPTY | INST_LIVE | INST_TOMB
  deriving DecidableEq

/-- `struct installed_page`. -/
structure InstalledPage where
  page : UInt64
  context : UInt64
  state : InstalledState
  deriving DecidableEq

abbrev Key := UInt64 × UInt64

/-- `installed_hash`. -/
def installedHash (pid page : UInt64) : UInt64 :=
  ((page >>> 12) * 2654435761) ^^^ (pid * 2246822519)

def installing : Hashing InstalledPage Key where
  hash key := (installedHash key.1 key.2).toNat
  key e := if e.state = .INST_LIVE then some (e.context, e.page) else none
  vacant e := e.state == .INST_EMPTY
  blank := ⟨0, 0, .INST_EMPTY⟩
  vacant_key e vacant := by
    have empty : e.state = .INST_EMPTY := eq_of_beq vacant
    exact if_neg (by rw [empty]; decide)
  blank_vacant := rfl

/-- The table of installed pages. -/
structure Pages where
  tab : Nat → InstalledPage
  capacity : Nat
  live : Nat
  occupied : Nat

def installedSlots : Nat := 65536

/-- `installed_rehash`. -/
def installedRehash (t : Pages) (capacity : Nat) (allocated : Bool) : Except Stuck Pages :=
  if capacity = 0 ∨ sizeMax / 24 < capacity ∨ allocated = false then .error .aborted
  else do
    let next ← probe ((installing.masked capacity).rehash installing.blank t.tab t.capacity)
    return { t with tab := next, capacity := capacity, occupied := t.live }

/-- The loop of `installed_find`: where it ends, and the first tombstone on the way. -/
def installedClaim (t : Pages) (key : Key) : Option Nat × Option Nat :=
  (installing.masked t.capacity).claim (fun e => e.state == .INST_TOMB) t.tab key

/-- `installed_find`: the key's slot, or the first one it may take. -/
def installedFind (t : Pages) (pid page : UInt64) : Except Stuck (Nat × Bool) := do
  let at_ ← probe (installedClaim t (pid, page)).1
  if installing.key (t.tab at_) = some (pid, page) then return (at_, true)
  return ((installedClaim t (pid, page)).2.getD at_, false)

/-- `page_is_installed`. -/
def pageIsInstalled (t : Pages) (pid page : UInt64) : Except Stuck Bool :=
  if t.capacity = 0 then .ok false
  else do
    let (_, found) ← installedFind t pid (pageBase page)
    return found

def rehashedCapacity (t : Pages) : Except Stuck Nat :=
  if t.capacity / 4 ≤ t.live then
    if sizeMax / 2 < t.capacity then .error .aborted else .ok (t.capacity * 2)
  else .ok t.capacity

/-- The rehash of `page_installed` when half of the slots are not empty. -/
def makeRoom (t : Pages) (pid page : UInt64) (allocated : Bool) :
    Except Stuck (Pages × Nat × Bool) := do
  let capacity ← rehashedCapacity t
  let t ← installedRehash t capacity allocated
  let (at_, found) ← installedFind t pid page
  return (t, at_, found)

def allocateFirst (t : Pages) (allocated : Bool) : Except Stuck Pages :=
  if t.capacity = 0 then installedRehash t installedSlots allocated else .ok t

def chooseSlot (t : Pages) (pid page : UInt64) (allocated : Bool) :
    Except Stuck (Pages × Nat × Bool) := do
  let t ← allocateFirst t allocated
  let (at_, found) ← installedFind t pid page
  if found = false ∧ t.capacity / 2 ≤ t.occupied then makeRoom t pid page allocated
  else return (t, at_, found)

def putLive (t : Pages) (at_ : Nat) (pid page : UInt64) : Pages :=
  { t with
    tab := update t.tab at_ ⟨page, pid, .INST_LIVE⟩,
    live := t.live + 1,
    occupied := if (t.tab at_).state = .INST_EMPTY then t.occupied + 1 else t.occupied }

/-- `page_installed`. -/
def pageInstalled (t : Pages) (pid page : UInt64) (allocated : Bool) :
    Except Stuck (Pages × Bool) := do
  let (t, at_, found) ← chooseSlot t pid (pageBase page) allocated
  if found then return (t, found)
  return (putLive t at_ pid (pageBase page), found)

def entomb (t : Pages) (at_ : Nat) : Pages :=
  { t with
    tab := update t.tab at_ { t.tab at_ with state := .INST_TOMB },
    live := t.live - 1 }

/-- `installed_remove`: the slot becomes a tombstone. -/
def installedRemove (t : Pages) (pid page : UInt64) : Except Stuck Pages :=
  if t.capacity = 0 then .ok t
  else do
    let (at_, found) ← installedFind t pid (pageBase page)
    return if found then entomb t at_ else t

def forgetSlot (t : Pages) (pid : UInt64) (i : Nat) : Pages :=
  if (t.tab i).state = .INST_LIVE ∧ (t.tab i).context = pid then entomb t i else t

def forgetFirst (t : Pages) (pid : UInt64) : Nat → Pages
  | 0 => t
  | i + 1 => forgetSlot (forgetFirst t pid i) pid i

/-- `installed_forget_context`. -/
def installedForgetContext (t : Pages) (pid : UInt64) : Pages := forgetFirst t pid t.capacity

/-! Sessions. -/

inductive Call
  | install (pid page : UInt64) (allocated : Bool)
  | query (pid page : UInt64)
  | remove (pid page : UInt64)
  | forget (pid : UInt64)

def Pages.call (t : Pages) : Call → Except Stuck (Pages × Option Bool)
  | .install pid page allocated => do
    let (t, found) ← pageInstalled t pid page allocated
    return (t, some found)
  | .query pid page => do
    let found ← pageIsInstalled t pid page
    return (t, some found)
  | .remove pid page => do
    let t ← installedRemove t pid page
    return (t, none)
  | .forget pid => .ok (installedForgetContext t pid, none)

/-- What a call does to a set of contexts and pages, and its answer if it has one. -/
def setCall (set : Finset Key) : Call → Finset Key × Option Bool
  | .install pid page _ => (insert (pid, pageBase page) set, some ((pid, pageBase page) ∈ set))
  | .query pid page => (set, some ((pid, pageBase page) ∈ set))
  | .remove pid page => (set.erase (pid, pageBase page), none)
  | .forget pid => (set.filter fun key => key.1 ≠ pid, none)

structure Session where
  pages : Pages
  set : Finset Key
  log : List (Option Bool × Option Bool)

def Session.start : Session := ⟨⟨fun _ => installing.blank, 0, 0, 0⟩, ∅, []⟩

def Session.next (s : Session) (c : Call) : Option Session :=
  match s.pages.call c with
  | .ok (t, answer) => some ⟨t, (setCall s.set c).1, (answer, (setCall s.set c).2) :: s.log⟩
  | .error _ => none

abbrev Session.Step : Session → Call → Session → Prop := Computed Session.next

/-! What the table keeps. -/

/-- The table holds the pages of a set. -/
structure Pages.Holds (t : Pages) (set : Finset Key) : Prop where
  /-- The array is allocated, and every key can be reached from its home. -/
  arrayed : installing.Arrayed t.tab t.capacity
  /-- `occupied` counts the slots that are not empty. -/
  loaded : (installing.masked t.capacity).load t.tab = t.occupied
  /-- `live` counts the live ones. -/
  alive : (installing.masked t.capacity).keyed t.tab t.capacity = t.live
  /-- At most half of the slots are occupied. -/
  half : t.occupied ≤ t.capacity / 2
  /-- An array has its first size at least. -/
  large : t.capacity ≠ 0 → installedSlots ≤ t.capacity
  /-- The set is that of the live keys. -/
  exact_ : ∀ key, key ∈ set ↔ (installing.tracked t.tab t.capacity key).isSome = true

variable {t t' : Pages} {set : Finset Key} {pid page : UInt64} {at_ : Nat}

theorem installing_key_iff {e : InstalledPage} {key : Key} :
    installing.key e = some key ↔ e.state = .INST_LIVE ∧ (e.context, e.page) = key := by
  change (if e.state = .INST_LIVE then some (e.context, e.page) else none) = some key ↔ _
  split
  · next live => simp [live]
  · next dead => simp [dead]

theorem installing_key_none {e : InstalledPage} (dead : e.state ≠ .INST_LIVE) :
    installing.key e = none := if_neg dead

namespace Pages.Holds

theorem live_eq (holds : t.Holds set) : t.live = set.card := by
  rw [← holds.alive, holds.arrayed.keyed_card _ holds.exact_]

theorem live_le (holds : t.Holds set) : t.live ≤ t.occupied := by
  rw [← holds.alive, ← holds.loaded]
  rcases holds.arrayed.shape with zero | ⟨m, power⟩
  · rw [zero]
    exact Nat.zero_le _
  · rw [power]
    exact (Hashing.masked_lawful m).keyed_le_load

/-- What a search returns: the slot of an element, or a slot that an element may take. -/
structure Chosen (t : Pages) (set : Finset Key) (key : Key) (at_ : Nat) (found : Bool) : Prop where
  inside : at_ < t.capacity
  answers : found = true ↔ key ∈ set
  hit : found = true → installing.key (t.tab at_) = some key
  miss : found = false → (t.tab at_).state ≠ .INST_LIVE
  chain : ∃ k < t.capacity,
    (installing.masked t.capacity).next^[k] ((installing.masked t.capacity).home key) = at_ ∧
    ∀ j < k, installing.vacant (t.tab ((installing.masked t.capacity).next^[j]
      ((installing.masked t.capacity).home key))) = false

theorem find (holds : t.Holds set) (allocated : t.capacity ≠ 0) (pid page : UInt64) :
    ∃ at_ found, installedFind t pid page = .ok (at_, found) ∧
      Chosen t set (pid, page) at_ found := by
  have half := holds.half
  have sound := holds.arrayed.sound allocated
  have short : (installing.masked t.capacity).load t.tab < t.capacity := by
    rw [holds.loaded]
    omega
  obtain ⟨pos, found⟩ := holds.arrayed.find_isSome allocated short (pid, page)
  obtain ⟨inside, cases_⟩ := holds.arrayed.find_cases allocated found
  unfold installedFind
  have ended : (installedClaim t (pid, page)).1 = some pos := Scheme.claim_fst.trans found
  rcases cases_ with ⟨owns, tracked⟩ | ⟨vacant, missing, placed⟩
  · obtain ⟨k, bound, landed, chain⟩ := sound.chained pos inside (pid, page) owns
    refine ⟨pos, true, ?_, inside, ?_, fun _ => owns, fun no => absurd no (by decide), k, bound,
      landed, chain⟩
    · rw [ended]
      exact if_pos owns
    · rw [holds.exact_, tracked]
      simp
  · have dead : installing.key (t.tab pos) ≠ some (pid, page) := by
      rw [installing.vacant_key _ vacant]
      simp
    have absent : ¬ (pid, page) ∈ set := by
      rw [holds.exact_, missing]
      simp
    cases remembered : (installedClaim t (pid, page)).2 with
    | none =>
      obtain ⟨-, -, chain⟩ := sound.law.place_spec placed
      refine ⟨pos, false, ?_, inside, ?_, fun no => absurd no (by decide), fun _ => ?_, chain⟩
      · rw [ended]
        exact if_neg dead
      · simp [absent]
      · have empty : (t.tab pos).state = .INST_EMPTY := eq_of_beq vacant
        rw [empty]
        decide
    | some reuse =>
      obtain ⟨reused, tomb, -, -, chain⟩ := sound.law.claim_snd remembered
      refine ⟨reuse, false, ?_, reused, ?_, fun no => absurd no (by decide), fun _ => ?_, chain⟩
      · rw [ended]
        exact if_neg dead
      · simp [absent]
      · rw [eq_of_beq tomb]
        decide

theorem rehash (holds : t.Holds set) {capacity : Nat} (shape : ∃ m, capacity = 2 ^ m)
    (large : installedSlots ≤ capacity) (fits : t.live < capacity / 2) (allocated : Bool) :
    (installedRehash t capacity allocated = .error .aborted ∧
        (sizeMax / 24 < capacity ∨ allocated = false)) ∨
      ∃ t', installedRehash t capacity allocated = .ok t' ∧ t'.Holds set ∧
        t'.capacity = capacity ∧ t'.occupied < t'.capacity / 2 ∧ t'.occupied = t'.live := by
  unfold installedRehash
  by_cases refused : capacity = 0 ∨ sizeMax / 24 < capacity ∨ allocated = false
  · refine .inl ⟨if_pos refused, ?_⟩
    rcases refused with zero | limit
    · omega
    · exact limit
  right
  obtain ⟨m, rfl⟩ := shape
  have counted : (installing.masked (2 ^ m)).keyed t.tab t.capacity = t.live := holds.alive
  obtain ⟨tab, rehashed, arrayed, loaded, same⟩ :=
    holds.arrayed.rehash m (by rw [counted]; omega)
  have exact_ : ∀ key, key ∈ set ↔ (installing.tracked tab (2 ^ m) key).isSome = true := by
    intro key
    rw [holds.exact_, same]
  refine ⟨{ t with tab := tab, capacity := 2 ^ m, occupied := t.live }, ?_,
    ⟨arrayed, loaded.trans counted, ?_, Nat.le_of_lt fits, fun _ => large, exact_⟩, rfl, fits, rfl⟩
  · rw [if_neg refused, rehashed]
    rfl
  · exact (arrayed.keyed_card _ exact_).trans holds.live_eq.symm

theorem untombed (holds : t.Holds set) (tight : t.occupied = t.live) (inside : at_ < t.capacity)
    (dead : (t.tab at_).state ≠ .INST_LIVE) : (t.tab at_).state = .INST_EMPTY := by
  have law := (holds.arrayed.sound (by omega)).law
  have loaded : (installing.masked t.capacity).load t.tab ≤
      (installing.masked t.capacity).keyed t.tab (installing.masked t.capacity).size := by
    rw [holds.loaded, tight]
    exact Nat.le_of_eq holds.alive.symm
  by_contra occupied
  have keyed := law.keyed_of_load_le loaded inside (beq_eq_false_iff_ne.mpr occupied)
  change (installing.key (t.tab at_)).isSome = true at keyed
  rw [installing_key_none dead] at keyed
  cases keyed

structure Ready (t : Pages) (set : Finset Key) (key : Key) (t' : Pages) (at_ : Nat)
    (found : Bool) : Prop where
  holds : t'.Holds set
  chosen : Chosen t' set key at_ found
  room : found = false → t'.occupied < t'.capacity / 2
  empty : found = false → t' ≠ t → (t'.tab at_).state = .INST_EMPTY

theorem ready (holds : t'.Holds set) (allocated : t'.capacity ≠ 0)
    (room : t'.occupied < t'.capacity / 2) (tight : t'.occupied = t'.live) (t : Pages)
    (pid page : UInt64) :
    ∃ at_ found, installedFind t' pid page = .ok (at_, found) ∧
      Ready t set (pid, page) t' at_ found := by
  obtain ⟨at_, found, ran, chosen⟩ := holds.find allocated pid page
  refine ⟨at_, found, ran, holds, chosen, fun _ => room, fun missing _ => ?_⟩
  exact holds.untombed tight chosen.inside (chosen.miss missing)

theorem capacity_spec (holds : t.Holds set) (allocated : t.capacity ≠ 0) :
    (rehashedCapacity t = .error .aborted ∧ sizeMax / 2 < t.capacity) ∨
      ∃ capacity, rehashedCapacity t = .ok capacity ∧ (∃ m, capacity = 2 ^ m) ∧
        installedSlots ≤ capacity ∧ t.live < capacity / 2 ∧ capacity ≤ t.capacity * 2 := by
  have large := holds.large allocated
  have half := holds.half
  have fewer := holds.live_le
  obtain ⟨m, power⟩ := holds.arrayed.shape.resolve_left allocated
  unfold rehashedCapacity
  have slots : installedSlots = 65536 := rfl
  by_cases many : t.capacity / 4 ≤ t.live
  · rw [if_pos many]
    by_cases limit : sizeMax / 2 < t.capacity
    · exact .inl ⟨if_pos limit, limit⟩
    · refine .inr ⟨t.capacity * 2, if_neg limit, ⟨m + 1, ?_⟩, by omega, by omega, Nat.le_refl _⟩
      rw [power, Nat.pow_succ]
  · rw [if_neg many]
    exact .inr ⟨t.capacity, rfl, ⟨m, power⟩, large, by omega, by omega⟩

theorem make_room (holds : t.Holds set) (allocated : t.capacity ≠ 0) (pid page : UInt64)
    (granted : Bool) :
    (makeRoom t pid page granted = .error .aborted ∧
        (granted = false ∨ sizeMax / 48 < t.capacity)) ∨
      ∃ t' at_ found, makeRoom t pid page granted = .ok (t', at_, found) ∧
        Ready t set (pid, page) t' at_ found := by
  unfold makeRoom
  rcases holds.capacity_spec allocated with
    ⟨failed, limit⟩ | ⟨capacity, ran, shape, large, fits, twice⟩
  · left
    rw [failed]
    refine ⟨rfl, .inr ?_⟩
    have bound : sizeMax = 2 ^ 64 - 1 := rfl
    omega
  rw [ran]
  rcases holds.rehash shape large fits granted with
    ⟨failed, limit⟩ | ⟨t', made, kept, same, room, tight⟩
  · left
    refine ⟨?_, ?_⟩
    · change (installedRehash t capacity granted >>= _) = _
      rw [failed]
      rfl
    · have bound : sizeMax = 2 ^ 64 - 1 := rfl
      rcases limit with limit | refused
      · right
        omega
      · exact .inl refused
  · right
    have slots : installedSlots = 65536 := rfl
    obtain ⟨at_, found, searched, ready⟩ := kept.ready (by omega) room tight t pid page
    refine ⟨t', at_, found, ?_, ready⟩
    change (installedRehash t capacity granted >>= _) = _
    rw [made]
    change (installedFind t' pid page >>= _) = _
    rw [searched]
    rfl

theorem chooseSlot_eq {granted found : Bool} (first : allocateFirst t granted = .ok t')
    (searched : installedFind t' pid page = .ok (at_, found)) :
    chooseSlot t pid page granted =
      if found = false ∧ t'.capacity / 2 ≤ t'.occupied then makeRoom t' pid page granted
      else .ok (t', at_, found) := by
  unfold chooseSlot
  rw [first]
  change (installedFind t' pid page >>= _) = _
  rw [searched]
  rfl

theorem choose (holds : t.Holds set) (pid page : UInt64) (granted : Bool) :
    (chooseSlot t pid page granted = .error .aborted ∧
        (granted = false ∨ sizeMax / 48 < t.capacity)) ∨
      ∃ t' at_ found, chooseSlot t pid page granted = .ok (t', at_, found) ∧
        Ready t set (pid, page) t' at_ found := by
  have half := holds.half
  have fewer := holds.live_le
  by_cases zero : t.capacity = 0
  · have first : allocateFirst t granted = installedRehash t installedSlots granted := if_pos zero
    have none_ : t.live < installedSlots / 2 := by
      have slots : installedSlots = 65536 := rfl
      omega
    have shape : ∃ m, installedSlots = 2 ^ m := ⟨16, rfl⟩
    rcases holds.rehash shape (Nat.le_refl _) none_ granted with
      ⟨failed, limit⟩ | ⟨t', made, kept, same, room, tight⟩
    · left
      rw [chooseSlot, first, failed]
      exact ⟨rfl, .inl (limit.resolve_left (by decide))⟩
    · right
      obtain ⟨at_, found, searched, ready⟩ := kept.ready (by omega) room tight t pid page
      refine ⟨t', at_, found, ?_, ready⟩
      rw [chooseSlot_eq (first.trans made) searched]
      exact if_neg fun full => Nat.not_le.mpr room full.2
  · have first : allocateFirst t granted = .ok t := if_neg zero
    obtain ⟨at_, found, searched, chosen⟩ := holds.find zero pid page
    rw [chooseSlot_eq first searched]
    by_cases full : found = false ∧ t.capacity / 2 ≤ t.occupied
    · rw [if_pos full]
      exact holds.make_room zero pid page granted
    · refine .inr ⟨t, at_, found, if_neg full, holds, chosen, fun missing => ?_, ?_⟩
      · by_contra crowded
        exact full ⟨missing, Nat.not_lt.mp crowded⟩
      · intro _ changed
        exact absurd rfl changed

theorem load_put (holds : t.Holds set) (inside : at_ < t.capacity) (e : InstalledPage)
    (used : e.state ≠ .INST_EMPTY) :
    (installing.masked t.capacity).load (update t.tab at_ e) =
      if (t.tab at_).state = .INST_EMPTY then t.occupied + 1 else t.occupied := by
  have stored := @Scheme.load_update _ _ (installing.masked t.capacity) t.tab at_ inside e
  have occupied : (installing.masked t.capacity).vacant e = false := beq_eq_false_iff_ne.mpr used
  rw [holds.loaded, occupied, if_pos rfl] at stored
  split
  · next empty =>
    have vacant : (installing.masked t.capacity).vacant (t.tab at_) = true :=
      beq_iff_eq.mpr empty
    rw [vacant, if_neg (by decide)] at stored
    exact stored
  · next busy =>
    have vacant : (installing.masked t.capacity).vacant (t.tab at_) = false :=
      beq_eq_false_iff_ne.mpr busy
    rw [vacant, if_pos rfl] at stored
    omega

theorem keyed_put (holds : t.Holds set) (inside : at_ < t.capacity) (e : InstalledPage) :
    (installing.masked t.capacity).keyed (update t.tab at_ e) t.capacity +
        (if (installing.key (t.tab at_)).isSome then 1 else 0) =
      t.live + if (installing.key e).isSome then 1 else 0 := by
  rw [← holds.alive]
  exact Scheme.keyed_update inside e

theorem put (ready : Ready t set (pid, page) t' at_ false) :
    (putLive t' at_ pid page).Holds (insert (pid, page) set) := by
  have holds := ready.holds
  have chosen := ready.chosen
  have room := ready.room rfl
  have absent : (pid, page) ∉ set := by
    intro member
    exact absurd (chosen.answers.mpr member) (by decide)
  have missing : installing.tracked t'.tab t'.capacity (pid, page) = none := by
    rw [holds.exact_, Bool.not_eq_true, Option.isSome_eq_false_iff, Option.isNone_iff_eq_none]
      at absent
    exact absent
  have unkeyed := installing_key_none (chosen.miss rfl)
  have owns : installing.key ⟨page, pid, .INST_LIVE⟩ = some (pid, page) :=
    installing_key_iff.mpr ⟨rfl, rfl⟩
  obtain ⟨arrayed, tracked⟩ :=
    holds.arrayed.settle missing chosen.inside unkeyed chosen.chain owns
  refine ⟨arrayed, holds.load_put chosen.inside _ (by simp), ?_, ?_, holds.large, ?_⟩
  · have stored := holds.keyed_put chosen.inside ⟨page, pid, .INST_LIVE⟩
    rw [unkeyed, owns] at stored
    exact stored
  · change (if (t'.tab at_).state = .INST_EMPTY then t'.occupied + 1 else t'.occupied) ≤
      t'.capacity / 2
    split <;> omega
  · intro key
    change _ ↔ (installing.tracked (update t'.tab at_ _) t'.capacity key).isSome = true
    rw [Finset.mem_insert, holds.exact_, tracked]
    by_cases same : key = (pid, page)
    · simp [same]
    · simp [same]

theorem entomb_spec (holds : t.Holds set) (inside : at_ < t.capacity) {key : Key}
    (owns : installing.key (t.tab at_) = some key) : (entomb t at_).Holds (set.erase key) := by
  have live := (installing_key_iff.mp owns).1
  have unkeyed : installing.key { t.tab at_ with state := .INST_TOMB } = none :=
    installing_key_none (by simp)
  have occupied : installing.vacant { t.tab at_ with state := .INST_TOMB } = false := rfl
  obtain ⟨arrayed, tracked⟩ := holds.arrayed.bury inside owns occupied unkeyed
  refine ⟨arrayed, ?_, ?_, holds.half, holds.large, ?_⟩
  · have stored := holds.load_put inside { t.tab at_ with state := .INST_TOMB } (by simp)
    rw [live, if_neg (by decide)] at stored
    exact stored
  · have stored := holds.keyed_put inside { t.tab at_ with state := .INST_TOMB }
    rw [unkeyed, owns] at stored
    exact Nat.eq_sub_of_add_eq stored
  · intro other
    change _ ↔ (installing.tracked (update t.tab at_ _) t.capacity other).isSome = true
    rw [Finset.mem_erase, holds.exact_, tracked]
    by_cases same : other = key
    · simp [same]
    · simp [same]

theorem forget_first (holds : t.Holds set) (pid : UInt64) {i : Nat} (bound : i ≤ t.capacity) :
    ∃ left : Finset Key, (forgetFirst t pid i).Holds left ∧
      (forgetFirst t pid i).capacity = t.capacity ∧
      (∀ key ∈ left, key ∈ set) ∧ (∀ key ∈ set, key.1 ≠ pid → key ∈ left) ∧
      ∀ j < i, ∀ key, installing.key ((forgetFirst t pid i).tab j) = some key → key.1 ≠ pid := by
  induction i with
  | zero => exact ⟨set, holds, rfl, fun _ => id, fun _ member _ => member, fun j none_ => by omega⟩
  | succ i ih =>
    obtain ⟨left, kept, same, sub, others, done⟩ := ih (by omega)
    by_cases mine : ((forgetFirst t pid i).tab i).state = .INST_LIVE ∧
        ((forgetFirst t pid i).tab i).context = pid
    · have step : forgetFirst t pid (i + 1) = entomb (forgetFirst t pid i) i := if_pos mine
      have owns : installing.key ((forgetFirst t pid i).tab i) =
          some (pid, ((forgetFirst t pid i).tab i).page) :=
        installing_key_iff.mpr ⟨mine.1, by rw [mine.2]⟩
      rw [step]
      refine ⟨left.erase (pid, ((forgetFirst t pid i).tab i).page),
        kept.entomb_spec (by omega) owns, same, ?_, ?_, ?_⟩
      · intro key member
        exact sub key (Finset.mem_of_mem_erase member)
      · intro key member other
        refine Finset.mem_erase.mpr ⟨?_, others key member other⟩
        rintro rfl
        exact other rfl
      · intro j below key held
        by_cases last : j = i
        · subst last
          simp only [entomb, update_self] at held
          exact absurd (installing_key_iff.mp held).1 (by simp)
        · simp only [entomb, update_of_ne last] at held
          exact done j (by omega) key held
    · have step : forgetFirst t pid (i + 1) = forgetFirst t pid i := if_neg mine
      rw [step]
      refine ⟨left, kept, same, sub, others, ?_⟩
      intro j below key held
      by_cases last : j = i
      · subst last
        obtain ⟨live, rfl⟩ := installing_key_iff.mp held
        exact fun context => mine ⟨live, context⟩
      · exact done j (by omega) key held

theorem forget (holds : t.Holds set) (pid : UInt64) :
    (installedForgetContext t pid).Holds (set.filter fun key => key.1 ≠ pid) := by
  obtain ⟨left, kept, same, sub, others, done⟩ := holds.forget_first pid (Nat.le_refl t.capacity)
  have exactly : left = set.filter fun key => key.1 ≠ pid := by
    ext key
    rw [Finset.mem_filter]
    constructor
    · intro member
      refine ⟨sub key member, ?_⟩
      obtain ⟨e, tracked⟩ := Option.isSome_iff_exists.mp ((kept.exact_ key).mp member)
      obtain ⟨pos, inside, rfl, held⟩ := kept.arrayed.tracked_iff.mp tracked
      exact done pos (by omega) key held
    · rintro ⟨member, other⟩
      exact others key member other
  rw [← exactly]
  exact kept

theorem call (holds : t.Holds set) (c : Call) :
    (t.call c = .error .aborted ∧ ∃ pid page granted, c = .install pid page granted ∧
        (granted = false ∨ sizeMax / 48 < t.capacity)) ∨
      ∃ t', t.call c = .ok (t', (setCall set c).2) ∧ t'.Holds (setCall set c).1 := by
  cases c with
  | install pid page granted =>
    unfold Pages.call pageInstalled
    rcases holds.choose pid (pageBase page) granted with
      ⟨failed, limit⟩ | ⟨t', at_, found, ran, ready⟩
    · left
      simp only [failed]
      exact ⟨rfl, pid, page, granted, rfl, limit⟩
    · right
      simp only [ran]
      have answers := ready.chosen.answers
      cases found with
      | true =>
        have member := answers.mp rfl
        refine ⟨t', ?_, ?_⟩
        · simp only [setCall, member]
          rfl
        · change t'.Holds (insert (pid, pageBase page) set)
          rw [Finset.insert_eq_of_mem member]
          exact ready.holds
      | false =>
        have absent : (pid, pageBase page) ∉ set := mt answers.mpr (by decide)
        refine ⟨putLive t' at_ pid (pageBase page), ?_, put ready⟩
        simp only [setCall, absent]
        rfl
  | query pid page =>
    right
    refine ⟨t, ?_, holds⟩
    unfold Pages.call pageIsInstalled
    by_cases zero : t.capacity = 0
    · have absent : (pid, pageBase page) ∉ set := by
        rw [holds.exact_, zero, Hashing.tracked_zero]
        simp
      simp only [zero, setCall, absent]
      rfl
    · obtain ⟨at_, found, ran, chosen⟩ := holds.find zero pid (pageBase page)
      have answer : found = decide ((pid, pageBase page) ∈ set) := by
        rw [Bool.eq_iff_iff, decide_eq_true_eq]
        exact chosen.answers
      simp only [zero, ran, setCall, ← answer]
      rfl
  | remove pid page =>
    right
    unfold Pages.call installedRemove
    by_cases zero : t.capacity = 0
    · have absent : (pid, pageBase page) ∉ set := by
        rw [holds.exact_, zero, Hashing.tracked_zero]
        simp
      refine ⟨t, by simp only [zero]; rfl, ?_⟩
      change t.Holds (set.erase (pid, pageBase page))
      rw [Finset.erase_eq_of_notMem absent]
      exact holds
    · obtain ⟨at_, found, ran, chosen⟩ := holds.find zero pid (pageBase page)
      simp only [zero, ran]
      cases found with
      | true => exact ⟨entomb t at_, rfl, holds.entomb_spec chosen.inside (chosen.hit rfl)⟩
      | false =>
        have absent : (pid, pageBase page) ∉ set := mt chosen.answers.mpr (by decide)
        refine ⟨t, rfl, ?_⟩
        change t.Holds (set.erase (pid, pageBase page))
        rw [Finset.erase_eq_of_notMem absent]
        exact holds
  | forget pid => exact .inr ⟨installedForgetContext t pid, rfl, holds.forget pid⟩

end Pages.Holds

/-! What every session keeps. -/

structure Session.Kept (s : Session) : Prop where
  holds : s.pages.Holds s.set
  agree : ∀ answers ∈ s.log, answers.1 = answers.2

theorem Session.Kept.start : Session.start.Kept := by
  refine ⟨⟨Hashing.arrayed_zero, rfl, rfl, Nat.le_refl 0, fun allocated => absurd rfl allocated,
    fun key => ?_⟩, fun answers member => absurd member List.not_mem_nil⟩
  change key ∈ ∅ ↔ (installing.tracked _ 0 key).isSome = true
  rw [Hashing.tracked_zero]
  simp

theorem Session.Kept.step {s s' : Session} {c : Call} (kept : s.Kept) (step : Session.Step s c s') :
    s'.Kept := by
  unfold Session.Step Computed Session.next at step
  rcases kept.holds.call c with ⟨failed, -⟩ | ⟨t', ran, holds⟩
  · rw [failed] at step
    cases step
  · rw [ran] at step
    cases step
    refine ⟨holds, fun answers member => ?_⟩
    rcases List.mem_cons.mp member with rfl | old
    · rfl
    · exact kept.agree answers old

theorem Session.Kept.reached {s : Session} (run : Reach Session.Step Session.start s) : s.Kept :=
  run.invariant (fun _ _ _ kept step => kept.step step) Kept.start

/-! The contract. -/

/-- The table is a set of pages to its callers. -/
structure Refines (s : Session) : Prop where
  /-- Every call answers what the set does. -/
  answers : ∀ answers ∈ s.log, answers.1 = answers.2
  /-- The elements are the live slots' keys. -/
  elements : ∀ key, key ∈ s.set ↔ ∃ pos < s.pages.capacity,
    (s.pages.tab pos).state = .INST_LIVE ∧ ((s.pages.tab pos).context, (s.pages.tab pos).page) = key
  /-- A key has one live slot. -/
  unique : ∀ pos < s.pages.capacity, ∀ other < s.pages.capacity,
    (s.pages.tab pos).state = .INST_LIVE → (s.pages.tab other).state = .INST_LIVE →
    (s.pages.tab pos).context = (s.pages.tab other).context →
    (s.pages.tab pos).page = (s.pages.tab other).page → pos = other
  /-- The live count is the size of the set. -/
  live : s.pages.live = s.set.card
  /-- The occupied count is the number of slots that are not empty. -/
  occupied : s.pages.occupied = ((Finset.range s.pages.capacity).filter
    fun pos => (s.pages.tab pos).state ≠ .INST_EMPTY).card
  /-- At most half of the slots are occupied. -/
  half : 2 * s.pages.occupied ≤ s.pages.capacity
  /-- A call returns, or ends the process because its allocation failed or is out of range. -/
  returns : ∀ c, (∃ s', Session.Step s c s') ∨
    (s.pages.call c = .error .aborted ∧ ∃ pid page granted, c = .install pid page granted ∧
      (granted = false ∨ sizeMax / 48 < s.pages.capacity))
  /-- The slot chosen for an insertion lies inside the array, is not live, is empty if the array was
  rehashed, and can be taken without making more than half of the slots occupied. -/
  chosen : ∀ pid page granted t' at_, chooseSlot s.pages pid page granted = .ok (t', at_, false) →
    at_ < t'.capacity ∧ (t'.tab at_).state ≠ .INST_LIVE ∧
    (t' ≠ s.pages → (t'.tab at_).state = .INST_EMPTY) ∧ t'.occupied < t'.capacity / 2

/-- In every session the table is the set of the pages installed and not removed. -/
theorem installed_refines_set {s : Session} (run : Reach Session.Step Session.start s) :
    Refines s := by
  have kept := Session.Kept.reached run
  have holds := kept.holds
  refine ⟨kept.agree, ?_, ?_, holds.live_eq, ?_, ?_, ?_, ?_⟩
  · intro key
    rw [holds.exact_, Option.isSome_iff_exists]
    constructor
    · rintro ⟨e, tracked⟩
      obtain ⟨pos, inside, rfl, owns⟩ := holds.arrayed.tracked_iff.mp tracked
      exact ⟨pos, inside, installing_key_iff.mp owns⟩
    · rintro ⟨pos, inside, owns⟩
      exact ⟨_, holds.arrayed.tracked_iff.mpr ⟨pos, inside, rfl, installing_key_iff.mpr owns⟩⟩
  · intro pos inside other otherInside live otherLive context page
    have owns := installing_key_iff.mpr ⟨live, rfl⟩
    have otherOwns := installing_key_iff.mpr ⟨otherLive, rfl⟩
    rw [← context, ← page] at otherOwns
    exact (holds.arrayed.sound (by omega)).unique pos inside other otherInside _ owns otherOwns
  · rw [← holds.loaded]
    unfold Scheme.load
    congr 1
    refine Finset.filter_congr fun pos _ => ?_
    exact beq_eq_false_iff_ne
  · have half := holds.half
    omega
  · intro c
    rcases holds.call c with failed | ⟨t', ran, -⟩
    · exact .inr failed
    · left
      refine ⟨⟨t', (setCall s.set c).1, ((setCall s.set c).2, (setCall s.set c).2) :: s.log⟩, ?_⟩
      rw [Session.Step, Computed, Session.next, ran]
  · intro pid page granted t' at_ ran
    rcases holds.choose pid page granted with ⟨failed, -⟩ | ⟨other, pos, found, made, ready⟩
    · rw [failed] at ran
      cases ran
    · rw [made] at ran
      cases ran
      exact ⟨ready.chosen.inside, ready.chosen.miss rfl, ready.empty rfl, ready.room rfl⟩

/-- The second page has the hash of the first and takes its tombstone, so that one slot only was
ever used. -/
theorem installed_refines_set_reuse : ∃ s : Session,
    Reach Session.Step Session.start s ∧ Refines s ∧ s.set = {(9, 0x10001000)} ∧
    s.pages.live = 1 ∧ s.pages.occupied = 1 ∧ s.log.length = 5 := by
  have ran : (exec Session.next Session.start
      [.install 9 4100 true, .install 9 4096 true, .remove 9 4096, .install 9 0x10001000 true,
        .query 9 4096]).any
      (fun s => s.set = {(9, 0x10001000)} && (s.pages.live = 1 && (s.pages.occupied = 1 &&
        s.log.length = 5))) = true := by
    decide +kernel
  obtain ⟨s, run, passes⟩ := exec_exhibits ran
  simp only [Bool.and_eq_true, decide_eq_true_eq] at passes
  exact ⟨s, run, installed_refines_set run, passes⟩

end Vmctx.Installed
