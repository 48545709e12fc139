import Mathlib.Algebra.Group.Nat.Defs
import Mathlib.Data.Nat.Bitwise
import Vmctx.Table.Probe
/-!
# Hashed arrays that grow

An array of a power of two slots is probed from a hash of the key by a mask, and is rehashed into an
array of another power of two when it fills up. `Hashing` fixes what varies between such tables, and
`Arrayed` is what they keep: nothing is allocated, or every key held is found by its own search.
What a table tracks under a key does not change when it is rehashed.
-/

namespace Vmctx.Table

open Function

inductive Stuck
  | aborted
  | diverges
  deriving DecidableEq

def probe {α : Type} (found : Option α) : Except Stuck α :=
  match found with
  | some value => .ok value
  | none => .error .diverges

/-- How the slots of a hashed array hold keys. -/
structure Hashing (σ κ : Type) where
  hash : κ → Nat
  key : σ → Option κ
  vacant : σ → Bool
  blank : σ
  vacant_key : ∀ slot, vacant slot = true → key slot = none
  blank_vacant : vacant blank = true

namespace Hashing

variable {σ κ : Type} [DecidableEq κ] (H : Hashing σ κ)

def masked (capacity : Nat) : Scheme σ κ where
  size := capacity
  next pos := (pos + 1) &&& (capacity - 1)
  home key := H.hash key &&& (capacity - 1)
  key := H.key
  vacant := H.vacant

def tracked (tab : Nat → σ) (capacity : Nat) (key : κ) : Option σ :=
  (H.masked capacity).lookup tab key

structure Arrayed (tab : Nat → σ) (capacity : Nat) : Prop where
  shape : capacity = 0 ∨ ∃ m, capacity = 2 ^ m
  sound : capacity ≠ 0 → (H.masked capacity).Sound tab

variable {H} {tab : Nat → σ} {capacity : Nat} {key : κ} {pos : Nat} {slot : σ}

omit [DecidableEq κ] in
theorem masked_lawful (m : Nat) : (H.masked (2 ^ m)).Lawful := by
  have positive : 0 < 2 ^ m := Nat.two_pow_pos m
  have cyclic : (H.masked (2 ^ m)).next = fun pos => (pos + 1) % 2 ^ m := by
    funext pos
    exact Nat.and_two_pow_sub_one_eq_mod (pos + 1) m
  constructor
  · exact H.vacant_key
  · intro key
    change _ &&& (2 ^ m - 1) < 2 ^ m
    rw [Nat.and_two_pow_sub_one_eq_mod]
    exact Nat.mod_lt _ positive
  · intro pos _
    rw [cyclic]
    exact Nat.mod_lt _ positive
  · intro pos inside target targetInside
    rw [cyclic]
    exact cyclic_reaches (2 ^ m) pos target inside targetInside

theorem tracked_zero (key : κ) : H.tracked tab 0 key = none := by
  simp [tracked, Scheme.lookup, Scheme.find, walk, masked]

omit [DecidableEq κ] in
theorem arrayed_zero : H.Arrayed tab 0 := ⟨.inl rfl, fun allocated => absurd rfl allocated⟩

namespace Arrayed

section

variable (arrayed : H.Arrayed tab capacity)
include arrayed

theorem tracked_iff :
    H.tracked tab capacity key = some slot ↔
      ∃ pos < capacity, tab pos = slot ∧ H.key slot = some key := by
  by_cases zero : capacity = 0
  · subst zero
    simp [tracked_zero]
  · exact (arrayed.sound zero).lookup_eq_some

theorem find_isSome (allocated : capacity ≠ 0) (short : (H.masked capacity).load tab < capacity)
    (key : κ) : ∃ pos, (H.masked capacity).find tab key = some pos :=
  (arrayed.sound allocated).law.find_isSome (Scheme.room_of_load short) key

/-- A search in an allocated array with a free slot finds the slot that is tracked, or ends at a
slot without the key where the key may be placed. -/
theorem find_cases (allocated : capacity ≠ 0)
    (found : (H.masked capacity).find tab key = some pos) :
    pos < capacity ∧
      ((H.key (tab pos) = some key ∧ H.tracked tab capacity key = some (tab pos)) ∨
        (H.vacant (tab pos) = true ∧ H.tracked tab capacity key = none ∧
          (H.masked capacity).place tab key = some pos)) := by
  have sound := arrayed.sound allocated
  have inside := sound.law.find_inside found
  refine ⟨inside, ?_⟩
  by_cases held : H.key (tab pos) = some key
  · exact .inl ⟨held, sound.lookup_held inside held⟩
  · right
    obtain ⟨placed, fresh⟩ := sound.find_missing found held
    refine ⟨(sound.law.place_spec placed).2.1, ?_, placed⟩
    refine Option.eq_none_iff_forall_ne_some.mpr fun other tracked => ?_
    exact fresh other (sound.lookup_eq_some.mp tracked)

theorem fill (allocated : capacity ≠ 0) (missing : H.tracked tab capacity key = none)
    (placed : (H.masked capacity).place tab key = some pos) (owns : H.key slot = some key) :
    H.Arrayed (update tab pos slot) capacity ∧
      H.tracked (update tab pos slot) capacity =
        update (H.tracked tab capacity) key (some slot) ∧
      (H.masked capacity).load (update tab pos slot) =
        (H.masked capacity).load tab + 1 := by
  have sound := arrayed.sound allocated
  have fresh : ∀ held, ¬ (H.masked capacity).Holds tab key held := by
    intro held holds
    have tracked := sound.lookup_eq_some.mpr holds
    change H.tracked tab capacity key = some held at tracked
    rw [missing] at tracked
    cases tracked
  obtain ⟨inside, vacant, -⟩ := sound.law.place_spec placed
  exact ⟨⟨arrayed.shape, fun _ => sound.fill fresh placed owns⟩,
    sound.lookup_fill fresh placed owns, sound.law.load_fill inside vacant owns⟩

theorem rehash (m : Nat) (fits : (H.masked (2 ^ m)).keyed tab capacity < 2 ^ m) :
    ∃ tab', (H.masked (2 ^ m)).rehash H.blank tab capacity = some tab' ∧
      H.Arrayed tab' (2 ^ m) ∧
      (H.masked (2 ^ m)).load tab' = (H.masked (2 ^ m)).keyed tab capacity ∧
      H.tracked tab' (2 ^ m) = H.tracked tab capacity := by
  have law : (H.masked (2 ^ m)).Lawful := masked_lawful m
  have distinct : ∀ pos < capacity, ∀ other < capacity, ∀ key,
      (H.masked (2 ^ m)).key (tab pos) = some key →
      (H.masked (2 ^ m)).key (tab other) = some key → pos = other := by
    intro pos inside other otherInside key held otherHeld
    exact (arrayed.sound (by omega)).unique pos inside other otherInside key held otherHeld
  obtain ⟨tab', rehashed, sound, loaded, contents⟩ := law.rehash_spec H.blank_vacant distinct fits
  refine ⟨tab', rehashed, ⟨.inr ⟨m, rfl⟩, fun _ => sound⟩, loaded, ?_⟩
  funext key
  ext slot
  rw [arrayed.tracked_iff]
  exact sound.lookup_eq_some.trans (contents key slot)

theorem keyed_card (other : Nat) {keys : Finset κ}
    (exact_ : ∀ key, key ∈ keys ↔ (H.tracked tab capacity key).isSome = true) :
    (H.masked other).keyed tab capacity = keys.card := by
  have named : ∀ pos ∈ (Finset.range capacity).filter
      (fun pos => ((H.masked other).key (tab pos)).isSome = true),
      ∃ key, H.key (tab pos) = some key := by
    intro pos member
    exact Option.isSome_iff_exists.mp (Finset.mem_filter.mp member).2
  refine Finset.card_bij (fun pos member => (H.key (tab pos)).get
    (Finset.mem_filter.mp member).2) ?_ ?_ ?_
  · intro pos member
    obtain ⟨key, held⟩ := named pos member
    have inside := Finset.mem_range.mp (Finset.mem_filter.mp member).1
    rw [exact_, Option.isSome_iff_exists]
    exact ⟨tab pos, arrayed.tracked_iff.mpr ⟨pos, inside, rfl, (Option.some_get _).symm⟩⟩
  · intro pos member elsewhere otherMember same
    have inside := Finset.mem_range.mp (Finset.mem_filter.mp member).1
    have otherInside := Finset.mem_range.mp (Finset.mem_filter.mp otherMember).1
    obtain ⟨key, held⟩ := named pos member
    obtain ⟨otherKey, otherHeld⟩ := named elsewhere otherMember
    simp only [held, otherHeld, Option.get_some] at same
    subst same
    exact (arrayed.sound (by omega)).unique pos inside elsewhere otherInside key held otherHeld
  · intro key member
    obtain ⟨slot, tracked⟩ := Option.isSome_iff_exists.mp ((exact_ key).mp member)
    obtain ⟨pos, inside, rfl, held⟩ := arrayed.tracked_iff.mp tracked
    refine ⟨pos, Finset.mem_filter.mpr ⟨Finset.mem_range.mpr inside, ?_⟩, ?_⟩
    · change (H.key (tab pos)).isSome = true
      rw [held]
      rfl
    · simp [held]

end

omit [DecidableEq κ] in
theorem load_eq_keyed (full : ∀ slot, H.vacant slot = !(H.key slot).isSome) (other : Nat) :
    (H.masked capacity).load tab = (H.masked other).keyed tab capacity := by
  unfold Scheme.load Scheme.keyed
  congr 1
  ext pos
  rw [Finset.mem_filter, Finset.mem_filter]
  simp [masked, full]

end Arrayed

end Hashing

def doubled (capacity first : Nat) : Nat := if capacity = 0 then first else capacity * 2 % 2 ^ 64

theorem doubled_shape {capacity k : Nat} (shape : capacity = 0 ∨ ∃ m, capacity = 2 ^ m)
    (grows : capacity ≤ doubled capacity (2 ^ k)) :
    ∃ m, doubled capacity (2 ^ k) = 2 ^ m ∧ capacity * 2 ≤ 2 ^ m := by
  unfold doubled at grows ⊢
  rcases shape with rfl | ⟨m, rfl⟩
  · exact ⟨k, rfl, Nat.zero_le _⟩
  have positive : 0 < 2 ^ m := Nat.two_pow_pos m
  rw [if_neg (Nat.ne_of_gt positive), ← Nat.pow_succ] at grows ⊢
  refine ⟨m + 1, ?_, Nat.le_refl _⟩
  by_cases small : m + 1 < 64
  · exact Nat.mod_eq_of_lt (Nat.pow_lt_pow_right (by decide) small)
  · -- The product wraps around to zero.
    have wrapped : 2 ^ (m + 1) % 2 ^ 64 = 0 :=
      Nat.mod_eq_zero_of_dvd (Nat.pow_dvd_pow 2 (by omega))
    omega

namespace Hashing

variable {σ κ : Type} [DecidableEq κ]

/-- An array without buried slots of which at most half is taken. -/
structure Halved (H : Hashing σ κ) (tab : Nat → σ) (capacity count : Nat) : Prop where
  arrayed : H.Arrayed tab capacity
  loaded : (H.masked capacity).load tab = count
  half : count ≤ capacity / 2

namespace Halved

variable {H : Hashing σ κ} {tab : Nat → σ} {capacity count : Nat} {key : κ} {pos : Nat} {slot : σ}

omit [DecidableEq κ] in
theorem zero : H.Halved tab 0 0 := ⟨arrayed_zero, rfl, Nat.le_refl 0⟩

/-- A search in an allocated array ends, at the slot that is tracked or where the key may be
placed. -/
theorem search (halved : H.Halved tab capacity count) (allocated : capacity ≠ 0) (key : κ) :
    ∃ pos, (H.masked capacity).find tab key = some pos ∧
      ((H.key (tab pos) = some key ∧ H.tracked tab capacity key = some (tab pos)) ∨
        (H.vacant (tab pos) = true ∧ H.tracked tab capacity key = none ∧
          (H.masked capacity).place tab key = some pos)) := by
  have half := halved.half
  have short : (H.masked capacity).load tab < capacity := by
    rw [halved.loaded]
    omega
  obtain ⟨pos, found⟩ := halved.arrayed.find_isSome allocated short key
  exact ⟨pos, found, (halved.arrayed.find_cases allocated found).2⟩

theorem grow (halved : H.Halved tab capacity count)
    (full : ∀ slot, H.vacant slot = !(H.key slot).isSome) {first k : Nat}
    (power : first = 2 ^ (k + 1)) (grows : capacity ≤ doubled capacity first) :
    ∃ tab', (H.masked (doubled capacity first)).rehash H.blank tab capacity = some tab' ∧
      H.Halved tab' (doubled capacity first) count ∧ count < doubled capacity first / 2 ∧
      H.tracked tab' (doubled capacity first) = H.tracked tab capacity := by
  subst power
  obtain ⟨m, shaped, wider⟩ := doubled_shape halved.arrayed.shape grows
  have half := halved.half
  have counted : (H.masked (2 ^ m)).keyed tab capacity = count := by
    rw [← Arrayed.load_eq_keyed full, halved.loaded]
  have two : capacity = 0 → 2 ≤ 2 ^ m := by
    intro zero
    rw [← shaped, zero, doubled, if_pos rfl, Nat.pow_succ]
    have positive : 0 < 2 ^ k := Nat.two_pow_pos k
    omega
  have room : count < 2 ^ m / 2 := by omega
  obtain ⟨tab', rehashed, arrayed, loaded, same⟩ :=
    halved.arrayed.rehash m (by rw [counted]; omega)
  rw [shaped]
  exact ⟨tab', rehashed, ⟨arrayed, loaded.trans counted, Nat.le_of_lt room⟩, room, same⟩

theorem fill (halved : H.Halved tab capacity count) (room : count < capacity / 2)
    (missing : H.tracked tab capacity key = none)
    (placed : (H.masked capacity).place tab key = some pos) (owns : H.key slot = some key) :
    H.Halved (update tab pos slot) capacity (count + 1) ∧
      H.tracked (update tab pos slot) capacity =
        update (H.tracked tab capacity) key (some slot) := by
  obtain ⟨arrayed, tracked, loaded⟩ := halved.arrayed.fill (by omega) missing placed owns
  rw [halved.loaded] at loaded
  exact ⟨⟨arrayed, loaded, room⟩, tracked⟩

theorem replace (halved : H.Halved tab capacity count) (inside : pos < capacity)
    (held : H.key (tab pos) = some key) (owns : H.key slot = some key) :
    H.Halved (update tab pos slot) capacity count ∧
      H.tracked (update tab pos slot) capacity =
        update (H.tracked tab capacity) key (some slot) := by
  have sound := halved.arrayed.sound (by omega)
  refine ⟨⟨⟨halved.arrayed.shape, fun _ => sound.replace held owns⟩, ?_, halved.half⟩, ?_⟩
  · exact (sound.law.load_replace held owns).trans halved.loaded
  · exact sound.lookup_replace inside held owns

end Halved

end Hashing

end Vmctx.Table
