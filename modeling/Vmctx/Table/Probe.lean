import Mathlib.Data.Finset.Card
import Mathlib.Data.Nat.Find
import Mathlib.Logic.Function.Iterate
/-!
# Tables searched by probing

A table is an array of slots. A key starts at its home position and a search follows a fixed
successor function until it meets the key or a vacant slot. `Scheme` fixes what varies between
tables: the size, the successor, the home position, the key a slot holds and which slots end a
search. A slot may hold no key and still not be vacant. `Sound` says that every key held is found
by its own search and is held once. Searches, insertions into the vacant slot a search ends at, and
rehashing into an empty table are proved against `Holds`, the set of slots the table contains.
-/

namespace Vmctx.Table

open Function

/-- Follow `next` from a position to the first one where the search stops. No position is returned
when the allowed number of positions is exhausted. -/
def walk (next : Nat → Nat) (stop : Nat → Bool) : Nat → Nat → Option Nat
  | 0, _ => none
  | fuel + 1, pos => if stop pos then some pos else walk next stop fuel (next pos)

variable {fuel : Nat} {next : Nat → Nat} {stop : Nat → Bool}

theorem walk_eq_some {pos last : Nat} :
    walk next stop fuel pos = some last ↔
      ∃ k < fuel, next^[k] pos = last ∧ stop last = true ∧
        ∀ j < k, stop (next^[j] pos) = false := by
  induction fuel generalizing pos with
  | zero => simp [walk]
  | succ fuel ih =>
    unfold walk
    cases here : stop pos with
    | true =>
      simp only [↓reduceIte, Option.some.injEq]
      constructor
      · rintro rfl
        exact ⟨0, by omega, rfl, here, by omega⟩
      · rintro ⟨k, -, rfl, -, before⟩
        cases k with
        | zero => rfl
        | succ k =>
          have first := before 0 (by omega)
          rw [Function.iterate_zero, id_eq, here] at first
          cases first
    | false =>
      simp only [Bool.false_eq_true, ↓reduceIte, ih]
      constructor
      · rintro ⟨k, bound, landed, stops, before⟩
        refine ⟨k + 1, by omega, landed, stops, ?_⟩
        intro j small
        cases j with
        | zero => exact here
        | succ j => exact before j (by omega)
      · rintro ⟨k, bound, landed, stops, before⟩
        cases k with
        | zero =>
          rw [Function.iterate_zero, id_eq] at landed
          rw [← landed, here] at stops
          cases stops
        | succ k =>
          refine ⟨k, by omega, landed, stops, ?_⟩
          intro j small
          exact before (j + 1) (by omega)

theorem walk_isSome {pos k : Nat} (bound : k < fuel) (stops : stop (next^[k] pos) = true) :
    ∃ last, walk next stop fuel pos = some last := by
  induction fuel generalizing pos k with
  | zero => omega
  | succ fuel ih =>
    unfold walk
    cases here : stop pos with
    | true => exact ⟨pos, rfl⟩
    | false =>
      cases k with
      | zero =>
        rw [Function.iterate_zero, id_eq, here] at stops
        cases stops
      | succ k => exact ih (Nat.lt_of_succ_lt_succ bound) stops

/-- Open addressing: where a key is looked for. -/
structure Scheme (σ κ : Type) where
  size : Nat
  next : Nat → Nat
  home : κ → Nat
  key : σ → Option κ
  vacant : σ → Bool

namespace Scheme

variable {σ κ : Type} (S : Scheme σ κ) {tab : Nat → σ} {key : κ} {slot : σ} {pos : Nat}

/-- Probes stay inside and reach every slot. -/
structure Lawful : Prop where
  vacant_key : ∀ slot, S.vacant slot = true → S.key slot = none
  home_inside : ∀ key, S.home key < S.size
  inside : ∀ pos < S.size, S.next pos < S.size
  reaches : ∀ pos < S.size, ∀ target < S.size, ∃ k < S.size, S.next^[k] pos = target

def Holds (tab : Nat → σ) (key : κ) (slot : σ) : Prop :=
  ∃ pos < S.size, tab pos = slot ∧ S.key slot = some key

/-- Every held key is found from its home before a vacant slot, and is held once. -/
structure Sound (tab : Nat → σ) : Prop where
  /-- The probe sequence visits every slot. -/
  law : S.Lawful
  /-- A key is reached from its home over slots that are not vacant. -/
  chained : ∀ pos < S.size, ∀ key, S.key (tab pos) = some key →
    ∃ k < S.size, S.next^[k] (S.home key) = pos ∧
      ∀ j < k, S.vacant (tab (S.next^[j] (S.home key))) = false
  /-- A key has one slot. -/
  unique : ∀ pos < S.size, ∀ other < S.size, ∀ key, S.key (tab pos) = some key →
    S.key (tab other) = some key → pos = other

def Room (tab : Nat → σ) : Prop := ∃ pos < S.size, S.vacant (tab pos) = true

def place (tab : Nat → σ) (key : κ) : Option Nat :=
  walk S.next (fun pos => S.vacant (tab pos)) S.size (S.home key)

/-- The first position of a key's probe sequence that is vacant or holds the key. -/
def find [DecidableEq κ] (tab : Nat → σ) (key : κ) : Option Nat :=
  walk S.next (fun pos => S.vacant (tab pos) || S.key (tab pos) == some key) S.size (S.home key)

variable {S}

theorem Lawful.probe_inside (law : S.Lawful) (key : κ) (k : Nat) :
    S.next^[k] (S.home key) < S.size := by
  induction k with
  | zero => exact law.home_inside key
  | succ k ih =>
    rw [Function.iterate_succ_apply']
    exact law.inside _ ih

theorem Lawful.occupied_of_key (law : S.Lawful) (owns : S.key slot = some key) :
    S.vacant slot = false := by
  cases empty : S.vacant slot with
  | false => rfl
  | true =>
    rw [law.vacant_key slot empty] at owns
    cases owns

theorem Lawful.update_occupied (law : S.Lawful) (owns : S.key slot = some key) (other : Nat)
    (used : S.vacant (tab other) = false) : S.vacant (update tab pos slot other) = false := by
  by_cases same : other = pos
  · rw [same, update_self]
    exact law.occupied_of_key owns
  · rw [update_of_ne same]
    exact used

theorem Lawful.place_isSome (law : S.Lawful) (room : S.Room tab) (key : κ) :
    ∃ pos, S.place tab key = some pos := by
  obtain ⟨free, inside, vacant⟩ := room
  obtain ⟨k, bound, rfl⟩ := law.reaches _ (law.home_inside key) free inside
  exact walk_isSome bound vacant

theorem Lawful.place_spec (law : S.Lawful) (placed : S.place tab key = some pos) :
    pos < S.size ∧ S.vacant (tab pos) = true ∧
      ∃ k < S.size, S.next^[k] (S.home key) = pos ∧
        ∀ j < k, S.vacant (tab (S.next^[j] (S.home key))) = false := by
  obtain ⟨k, bound, rfl, vacant, before⟩ := walk_eq_some.mp placed
  exact ⟨law.probe_inside key k, vacant, k, bound, rfl, before⟩

/-- Filling a position without a key, before every vacant one of a fresh key's probe sequence, keeps
the table sound. -/
theorem Sound.settle (sound : S.Sound tab) (fresh : ∀ held, ¬ S.Holds tab key held)
    (chain : ∃ k < S.size, S.next^[k] (S.home key) = pos ∧
      ∀ j < k, S.vacant (tab (S.next^[j] (S.home key))) = false)
    (owns : S.key slot = some key) : S.Sound (update tab pos slot) := by
  obtain ⟨k, bound, landed, before⟩ := chain
  have still : ∀ other, S.vacant (tab other) = false →
      S.vacant (update tab pos slot other) = false := sound.law.update_occupied owns
  refine ⟨sound.law, ?_, ?_⟩
  · intro other otherInside wanted held
    by_cases same : other = pos
    · rw [same, update_self, owns, Option.some.injEq] at held
      rw [← held, same]
      exact ⟨k, bound, landed, fun j small => still _ (before j small)⟩
    · rw [update_of_ne same] at held
      obtain ⟨steps, stepsBound, stepsLanded, chain⟩ :=
        sound.chained other otherInside wanted held
      exact ⟨steps, stepsBound, stepsLanded, fun j small => still _ (chain j small)⟩
  · intro first firstInside second secondInside wanted firstHeld secondHeld
    by_cases firstSame : first = pos <;> by_cases secondSame : second = pos
    · rw [firstSame, secondSame]
    · rw [firstSame, update_self, owns, Option.some.injEq] at firstHeld
      rw [update_of_ne secondSame, ← firstHeld] at secondHeld
      exact absurd ⟨second, secondInside, rfl, secondHeld⟩ (fresh (tab second))
    · rw [secondSame, update_self, owns, Option.some.injEq] at secondHeld
      rw [update_of_ne firstSame, ← secondHeld] at firstHeld
      exact absurd ⟨first, firstInside, rfl, firstHeld⟩ (fresh (tab first))
    · rw [update_of_ne firstSame] at firstHeld
      rw [update_of_ne secondSame] at secondHeld
      exact sound.unique first firstInside second secondInside wanted firstHeld secondHeld

theorem Sound.fill (sound : S.Sound tab) (fresh : ∀ held, ¬ S.Holds tab key held)
    (placed : S.place tab key = some pos) (owns : S.key slot = some key) :
    S.Sound (update tab pos slot) :=
  sound.settle fresh (sound.law.place_spec placed).2.2 owns

variable {held found : σ} {wanted : κ}

/-- A table filled at a position without a key contains the new slot and what it contained
before. -/
theorem holds_settle (inside : pos < S.size) (unkeyed : S.key (tab pos) = none)
    (owns : S.key slot = some key) :
    S.Holds (update tab pos slot) wanted held ↔
      (wanted = key ∧ held = slot) ∨ S.Holds tab wanted held := by
  constructor
  · rintro ⟨other, otherInside, rfl, otherHeld⟩
    by_cases same : other = pos
    · rw [same, update_self] at otherHeld ⊢
      rw [owns, Option.some.injEq] at otherHeld
      exact .inl ⟨otherHeld.symm, rfl⟩
    · rw [update_of_ne same] at otherHeld ⊢
      exact .inr ⟨other, otherInside, rfl, otherHeld⟩
  · rintro (⟨rfl, rfl⟩ | ⟨other, otherInside, rfl, otherHeld⟩)
    · exact ⟨pos, inside, update_self .., owns⟩
    · have apart : other ≠ pos := by
        rintro rfl
        rw [unkeyed] at otherHeld
        cases otherHeld
      exact ⟨other, otherInside, update_of_ne apart .., otherHeld⟩

theorem Lawful.holds_fill (law : S.Lawful) (inside : pos < S.size)
    (vacant : S.vacant (tab pos) = true) (owns : S.key slot = some key) :
    S.Holds (update tab pos slot) wanted held ↔
      (wanted = key ∧ held = slot) ∨ S.Holds tab wanted held :=
  holds_settle inside (law.vacant_key _ vacant) owns

theorem Sound.bury (sound : S.Sound tab) (occupied : S.vacant slot = false)
    (unkeyed : S.key slot = none) : S.Sound (update tab pos slot) := by
  have still : ∀ other, S.vacant (tab other) = false →
      S.vacant (update tab pos slot other) = false := by
    intro other used
    by_cases same : other = pos
    · rw [same, update_self]
      exact occupied
    · rw [update_of_ne same]
      exact used
  have earlier : ∀ other wanted, S.key (update tab pos slot other) = some wanted →
      other ≠ pos ∧ S.key (tab other) = some wanted := by
    intro other wanted held
    by_cases same : other = pos
    · rw [same, update_self, unkeyed] at held
      cases held
    · rw [update_of_ne same] at held
      exact ⟨same, held⟩
  refine ⟨sound.law, ?_, ?_⟩
  · intro other otherInside wanted held
    obtain ⟨steps, bound, landed, chain⟩ :=
      sound.chained other otherInside wanted (earlier other wanted held).2
    exact ⟨steps, bound, landed, fun j small => still _ (chain j small)⟩
  · intro first firstInside second secondInside wanted firstHeld secondHeld
    exact sound.unique first firstInside second secondInside wanted
      (earlier first wanted firstHeld).2 (earlier second wanted secondHeld).2

theorem holds_bury (unkeyed : S.key slot = none) :
    S.Holds (update tab pos slot) wanted found ↔
      ∃ other < S.size, other ≠ pos ∧ tab other = found ∧ S.key found = some wanted := by
  constructor
  · rintro ⟨other, otherInside, rfl, otherHeld⟩
    by_cases same : other = pos
    · rw [same, update_self, unkeyed] at otherHeld
      cases otherHeld
    · rw [update_of_ne same] at otherHeld ⊢
      exact ⟨other, otherInside, same, rfl, otherHeld⟩
  · rintro ⟨other, otherInside, apart, rfl, otherHeld⟩
    exact ⟨other, otherInside, update_of_ne apart .., otherHeld⟩

theorem Sound.replace (sound : S.Sound tab) (held : S.key (tab pos) = some key)
    (owns : S.key slot = some key) : S.Sound (update tab pos slot) := by
  have sameKey : ∀ other, S.key (update tab pos slot other) = S.key (tab other) := by
    intro other
    by_cases same : other = pos
    · rw [same, update_self, owns, held]
    · rw [update_of_ne same]
  have still : ∀ other, S.vacant (tab other) = false →
      S.vacant (update tab pos slot other) = false := sound.law.update_occupied owns
  refine ⟨sound.law, ?_, ?_⟩
  · intro other otherInside wanted otherHeld
    rw [sameKey] at otherHeld
    obtain ⟨steps, bound, landed, chain⟩ := sound.chained other otherInside wanted otherHeld
    exact ⟨steps, bound, landed, fun j small => still _ (chain j small)⟩
  · intro first firstInside second secondInside wanted firstHeld secondHeld
    rw [sameKey] at firstHeld secondHeld
    exact sound.unique first firstInside second secondInside wanted firstHeld secondHeld

theorem Sound.holds_replace (sound : S.Sound tab) (inside : pos < S.size)
    (held : S.key (tab pos) = some key) (owns : S.key slot = some key) :
    S.Holds (update tab pos slot) wanted found ↔
      (wanted = key ∧ found = slot) ∨ (wanted ≠ key ∧ S.Holds tab wanted found) := by
  constructor
  · rintro ⟨other, otherInside, rfl, otherHeld⟩
    by_cases same : other = pos
    · rw [same, update_self] at otherHeld ⊢
      rw [owns, Option.some.injEq] at otherHeld
      exact .inl ⟨otherHeld.symm, rfl⟩
    · rw [update_of_ne same] at otherHeld ⊢
      refine .inr ⟨?_, other, otherInside, rfl, otherHeld⟩
      rintro rfl
      exact same (sound.unique other otherInside pos inside wanted otherHeld held)
  · rintro (⟨rfl, rfl⟩ | ⟨apart, other, otherInside, rfl, otherHeld⟩)
    · exact ⟨pos, inside, update_self .., owns⟩
    · have elsewhere : other ≠ pos := by
        rintro rfl
        rw [held, Option.some.injEq] at otherHeld
        exact apart otherHeld.symm
      exact ⟨other, otherInside, update_of_ne elsewhere .., otherHeld⟩

theorem Sound.find_held [DecidableEq κ] (sound : S.Sound tab)
    (inside : pos < S.size) (held : S.key (tab pos) = some key) : S.find tab key = some pos := by
  obtain ⟨k, bound, rfl, chain⟩ := sound.chained pos inside key held
  -- An earlier position with the key can be passed over only if it is the same position.
  classical
  have stopsSomewhere : ∃ j, S.key (tab (S.next^[j] (S.home key))) = some key := ⟨k, held⟩
  have first := Nat.find_spec stopsSomewhere
  have earliest : Nat.find stopsSomewhere ≤ k := Nat.find_min' stopsSomewhere held
  have same : S.next^[Nat.find stopsSomewhere] (S.home key) = S.next^[k] (S.home key) :=
    sound.unique _ (sound.law.probe_inside _ _) _ (sound.law.probe_inside _ _) key first held
  refine walk_eq_some.mpr ⟨Nat.find stopsSomewhere, by omega, same, by simp [held], ?_⟩
  intro j small
  have notKey := Nat.find_min stopsSomewhere small
  simp [chain j (by omega), notKey]

theorem Lawful.find_isSome (law : S.Lawful) [DecidableEq κ] (room : S.Room tab) (key : κ) :
    ∃ pos, S.find tab key = some pos := by
  obtain ⟨free, inside, vacant⟩ := room
  obtain ⟨k, bound, rfl⟩ := law.reaches _ (law.home_inside key) free inside
  exact walk_isSome bound (by simp [vacant])

theorem Lawful.find_inside (law : S.Lawful) [DecidableEq κ] (found : S.find tab key = some pos) :
    pos < S.size := by
  obtain ⟨k, -, rfl, -⟩ := walk_eq_some.mp found
  exact law.probe_inside key k

/-- A search that ends at another slot ends at the position where the key would be placed, and the
table does not hold the key. -/
theorem Sound.find_missing [DecidableEq κ] (sound : S.Sound tab)
    (found : S.find tab key = some pos) (missing : S.key (tab pos) ≠ some key) :
    S.place tab key = some pos ∧ ∀ held, ¬ S.Holds tab key held := by
  constructor
  · obtain ⟨k, bound, landed, stops, before⟩ := walk_eq_some.mp found
    refine walk_eq_some.mpr ⟨k, bound, landed, by simpa [missing] using stops, ?_⟩
    intro j small
    have passed := before j small
    rw [Bool.or_eq_false_iff] at passed
    exact passed.1
  · rintro held ⟨other, otherInside, rfl, otherHeld⟩
    rw [sound.find_held otherInside otherHeld, Option.some.injEq] at found
    rw [found] at otherHeld
    exact missing otherHeld

def lookup [DecidableEq κ] (S : Scheme σ κ) (tab : Nat → σ) (key : κ) : Option σ :=
  (S.find tab key).bind fun pos => if S.key (tab pos) = some key then some (tab pos) else none

theorem Sound.lookup_eq_some [DecidableEq κ] (sound : S.Sound tab) :
    S.lookup tab key = some slot ↔ S.Holds tab key slot := by
  constructor
  · intro looked
    obtain ⟨pos, found, taken⟩ := Option.bind_eq_some_iff.mp looked
    split at taken
    · next owns =>
      cases Option.some.inj taken
      exact ⟨pos, sound.law.find_inside found, rfl, owns⟩
    · cases taken
  · rintro ⟨pos, inside, rfl, owns⟩
    rw [lookup, sound.find_held inside owns]
    exact if_pos owns

theorem Sound.lookup_held [DecidableEq κ] (sound : S.Sound tab) (inside : pos < S.size)
    (held : S.key (tab pos) = some key) : S.lookup tab key = some (tab pos) :=
  sound.lookup_eq_some.mpr ⟨pos, inside, rfl, held⟩

theorem Sound.lookup_fill [DecidableEq κ] (sound : S.Sound tab)
    (fresh : ∀ held, ¬ S.Holds tab key held) (placed : S.place tab key = some pos)
    (owns : S.key slot = some key) :
    S.lookup (update tab pos slot) = update (S.lookup tab) key (some slot) := by
  obtain ⟨inside, vacant, -⟩ := sound.law.place_spec placed
  funext wanted
  ext held
  rw [(sound.fill fresh placed owns).lookup_eq_some, sound.law.holds_fill inside vacant owns]
  by_cases same : wanted = key
  · subst same
    simp [fresh held, eq_comm]
  · simp [same, sound.lookup_eq_some]

theorem Sound.lookup_replace [DecidableEq κ] (sound : S.Sound tab) (inside : pos < S.size)
    (held : S.key (tab pos) = some key) (owns : S.key slot = some key) :
    S.lookup (update tab pos slot) = update (S.lookup tab) key (some slot) := by
  funext wanted
  ext found
  rw [(sound.replace held owns).lookup_eq_some, sound.holds_replace inside held owns]
  by_cases same : wanted = key
  · subst same
    simp [eq_comm]
  · simp [same, sound.lookup_eq_some]

def load (S : Scheme σ κ) (tab : Nat → σ) : Nat :=
  ((Finset.range S.size).filter fun pos => S.vacant (tab pos) = false).card

theorem room_of_load (short : S.load tab < S.size) : S.Room tab := by
  by_contra full
  have all : ((Finset.range S.size).filter fun pos => S.vacant (tab pos) = false) =
      Finset.range S.size := by
    refine Finset.filter_true_of_mem fun pos member => ?_
    rw [Finset.mem_range] at member
    rw [← Bool.not_eq_true]
    exact fun vacant => full ⟨pos, member, vacant⟩
  rw [load, all, Finset.card_range] at short
  exact Nat.lt_irrefl _ short

theorem Lawful.load_fill (law : S.Lawful) (inside : pos < S.size)
    (vacant : S.vacant (tab pos) = true) (owns : S.key slot = some key) :
    S.load (update tab pos slot) = S.load tab + 1 := by
  have grown : ((Finset.range S.size).filter fun other =>
        S.vacant (update tab pos slot other) = false) =
      insert pos ((Finset.range S.size).filter fun other => S.vacant (tab other) = false) := by
    ext other
    simp only [Finset.mem_filter, Finset.mem_range, Finset.mem_insert]
    by_cases same : other = pos
    · simp [same, inside, law.occupied_of_key owns]
    · simp [same]
  rw [load, grown, Finset.card_insert_of_notMem (by simp [vacant])]
  rfl

theorem Lawful.load_replace (law : S.Lawful) (held : S.key (tab pos) = some key)
    (owns : S.key slot = some key) : S.load (update tab pos slot) = S.load tab := by
  unfold load
  congr 1
  ext other
  by_cases same : other = pos
  · simp [same, law.occupied_of_key owns, law.occupied_of_key held]
  · simp [update_of_ne same]

/-- Place the keyed slots among the first `count` of an old array into an empty table, in the
array's order. -/
def rehash (S : Scheme σ κ) (empty : σ) (old : Nat → σ) : Nat → Option (Nat → σ)
  | 0 => some fun _ => empty
  | count + 1 => (rehash S empty old count).bind fun tab =>
    match S.key (old count) with
    | none => some tab
    | some key => (S.place tab key).map fun pos => update tab pos (old count)

/-- The number of keyed slots among the first `count` of an array. -/
def keyed (S : Scheme σ κ) (old : Nat → σ) (count : Nat) : Nat :=
  ((Finset.range count).filter fun pos => (S.key (old pos)).isSome).card

theorem keyed_succ (old : Nat → σ) (count : Nat) :
    S.keyed old (count + 1) = S.keyed old count + if (S.key (old count)).isSome then 1 else 0 := by
  unfold keyed
  rw [Finset.range_add_one, Finset.filter_insert]
  split
  · rw [Finset.card_insert_of_notMem (by simp)]
  · rfl

theorem Lawful.rehash_spec (law : S.Lawful) {empty : σ} {old : Nat → σ} {count : Nat}
    (blank : S.vacant empty = true)
    (distinct : ∀ pos < count, ∀ other < count, ∀ key, S.key (old pos) = some key →
      S.key (old other) = some key → pos = other) (fits : S.keyed old count < S.size) :
    ∃ tab, S.rehash empty old count = some tab ∧ S.Sound tab ∧
      S.load tab = S.keyed old count ∧
      ∀ key slot, S.Holds tab key slot ↔
        ∃ pos < count, old pos = slot ∧ S.key slot = some key := by
  induction count with
  | zero =>
    have noKey : ∀ key, S.key empty ≠ some key := by
      simp [law.vacant_key empty blank]
    refine ⟨fun _ => empty, rfl, ⟨law, ?_, ?_⟩, ?_, ?_⟩
    · intro pos _ key held
      exact absurd held (noKey key)
    · intro pos _ other _ key held
      exact absurd held (noKey key)
    · simp [load, keyed, blank]
    · intro key slot
      constructor
      · rintro ⟨pos, -, rfl, held⟩
        exact absurd held (noKey key)
      · rintro ⟨pos, below, -⟩
        omega
  | succ count ih =>
    rw [keyed_succ] at fits
    obtain ⟨tab, done, sound, loaded, contents⟩ := ih
      (fun pos below other otherBelow => distinct pos (by omega) other (by omega)) (by omega)
    cases here : S.key (old count) with
    | none =>
      refine ⟨tab, by simp [rehash, done, here], sound, by simp [keyed_succ, here, loaded], ?_⟩
      intro key slot
      rw [contents]
      constructor
      · rintro ⟨pos, below, rest⟩
        exact ⟨pos, by omega, rest⟩
      · rintro ⟨pos, below, rfl, held⟩
        have apart : pos ≠ count := by
          rintro rfl
          rw [here] at held
          cases held
        exact ⟨pos, by omega, rfl, held⟩
    | some key =>
      have room : S.Room tab := room_of_load (by omega)
      have fresh : ∀ held, ¬ S.Holds tab key held := by
        intro held holds
        obtain ⟨pos, below, rfl, owns⟩ := (contents key held).mp holds
        have same := distinct pos (by omega) count (by omega) key owns here
        omega
      obtain ⟨pos, placed⟩ := law.place_isSome room key
      obtain ⟨inside, vacant, -⟩ := law.place_spec placed
      refine ⟨update tab pos (old count), by simp [rehash, done, here, placed],
        sound.fill fresh placed here, ?_, ?_⟩
      · rw [law.load_fill inside vacant here, loaded, keyed_succ, here]
        rfl
      · intro wanted slot
        rw [law.holds_fill inside vacant here, contents]
        constructor
        · rintro (⟨rfl, rfl⟩ | ⟨other, below, rest⟩)
          · exact ⟨count, by omega, rfl, here⟩
          · exact ⟨other, by omega, rest⟩
        · rintro ⟨other, below, rfl, held⟩
          by_cases last : other = count
          · subst last
            rw [here, Option.some.injEq] at held
            exact .inl ⟨held.symm, rfl⟩
          · exact .inr ⟨other, by omega, rfl, held⟩

end Scheme

theorem iterate_cyclic (size pos k : Nat) (inside : pos < size) :
    (fun p => (p + 1) % size)^[k] pos = (pos + k) % size := by
  induction k with
  | zero => exact (Nat.mod_eq_of_lt inside).symm
  | succ k ih => rw [Function.iterate_succ_apply', ih, Nat.mod_add_mod, Nat.add_assoc]

theorem cyclic_reaches (size pos target : Nat) (inside : pos < size)
    (targetInside : target < size) :
    ∃ k < size, (fun p => (p + 1) % size)^[k] pos = target := by
  refine ⟨(target + (size - pos)) % size, Nat.mod_lt _ (by omega), ?_⟩
  have around : pos + (target + (size - pos)) = target + size := by omega
  rw [iterate_cyclic size pos _ inside, Nat.add_mod_mod, around, Nat.add_mod_right,
    Nat.mod_eq_of_lt targetInside]

end Vmctx.Table
