import Mathlib.Algebra.BigOperators.Group.Finset.Piecewise
import Vmctx.Table.Growing
/-!
# Tables with buried slots

A removed key leaves its slot occupied, so that the searches that pass it go on. A search therefore
also remembers the first slot on its way that may be taken again, and a key that is not held is put
there. A slot may be taken again when it holds no key, or a key whose loss does not matter.
-/

namespace Vmctx.Table

open Function

/-- Follow `next` from a position to the first one where the search stops, and remember the first
one on the way that may be taken. -/
def survey (next : Nat → Nat) (stop free : Nat → Bool) :
    Nat → Nat → Option Nat → Option Nat × Option Nat
  | 0, _, taken => (none, taken)
  | fuel + 1, pos, taken =>
    if stop pos then (some pos, taken)
    else survey next stop free fuel (next pos) (taken.or (if free pos then some pos else none))

section Survey

variable {next : Nat → Nat} {stop free : Nat → Bool} {fuel pos k r : Nat}

theorem survey_fst (taken : Option Nat) :
    (survey next stop free fuel pos taken).1 = walk next stop fuel pos := by
  induction fuel generalizing pos taken with
  | zero => rfl
  | succ fuel ih =>
    unfold survey walk
    split
    · rfl
    · exact ih _

theorem survey_kept : (survey next stop free fuel pos (some r)).2 = some r := by
  induction fuel generalizing pos with
  | zero => rfl
  | succ fuel ih =>
    unfold survey
    split
    · rfl
    · exact ih

theorem survey_snd_some (remembered : (survey next stop free fuel pos none).2 = some r) :
    ∃ k < fuel, next^[k] pos = r ∧ free r = true ∧ ∀ j ≤ k, stop (next^[j] pos) = false := by
  induction fuel generalizing pos with
  | zero => cases remembered
  | succ fuel ih =>
    unfold survey at remembered
    cases here : stop pos with
    | true =>
      rw [here] at remembered
      cases remembered
    | false =>
      rw [here, if_neg Bool.false_ne_true, Option.none_or] at remembered
      cases open_ : free pos with
      | true =>
        rw [open_, if_pos rfl, survey_kept, Option.some.injEq] at remembered
        subst remembered
        refine ⟨0, Nat.succ_pos fuel, rfl, open_, fun j small => ?_⟩
        rw [Nat.le_zero.mp small]
        exact here
      | false =>
        rw [open_, if_neg Bool.false_ne_true] at remembered
        obtain ⟨k, bound, landed, opens, before⟩ := ih remembered
        refine ⟨k + 1, by omega, landed, opens, fun j small => ?_⟩
        cases j with
        | zero => exact here
        | succ j => exact before j (by omega)

theorem survey_snd_none (nothing : (survey next stop free fuel pos none).2 = none)
    (bound : k < fuel) (before : ∀ j ≤ k, stop (next^[j] pos) = false) :
    free (next^[k] pos) = false := by
  induction fuel generalizing pos k with
  | zero => omega
  | succ fuel ih =>
    have here : stop pos = false := before 0 (Nat.zero_le k)
    unfold survey at nothing
    rw [here, if_neg Bool.false_ne_true, Option.none_or] at nothing
    cases open_ : free pos with
    | true =>
      rw [open_, if_pos rfl, survey_kept] at nothing
      cases nothing
    | false =>
      rw [open_, if_neg Bool.false_ne_true] at nothing
      cases k with
      | zero => exact open_
      | succ k =>
        change free (next^[k] (next pos)) = false
        exact ih nothing (by omega) fun j small => before (j + 1) (by omega)

end Survey

theorem card_update {σ : Type} {size pos : Nat} (inside : pos < size) (P : σ → Prop)
    [DecidablePred P] (tab : Nat → σ) (slot : σ) :
    ((Finset.range size).filter fun i => P (update tab pos slot i)).card +
        (if P (tab pos) then 1 else 0) =
      ((Finset.range size).filter fun i => P (tab i)).card + (if P slot then 1 else 0) := by
  have member : pos ∈ Finset.range size := Finset.mem_range.mpr inside
  have others : ∑ i ∈ (Finset.range size).erase pos,
        (if P (update tab pos slot i) then 1 else 0) =
      ∑ i ∈ (Finset.range size).erase pos, if P (tab i) then 1 else 0 := by
    refine Finset.sum_congr rfl fun i other => ?_
    rw [update_of_ne (Finset.ne_of_mem_erase other)]
  rw [Finset.card_filter, Finset.card_filter, ← Finset.add_sum_erase _ _ member,
    ← Finset.add_sum_erase _ _ member, others, update_self]
  omega

namespace Scheme

variable {σ κ : Type} [DecidableEq κ] {S : Scheme σ κ} {tab : Nat → σ} {key : κ} {slot : σ}
  {pos : Nat} {free : σ → Bool}

def stops (S : Scheme σ κ) (tab : Nat → σ) (key : κ) (pos : Nat) : Bool :=
  S.vacant (tab pos) || S.key (tab pos) == some key

theorem stops_eq_false :
    S.stops tab key pos = false ↔ S.vacant (tab pos) = false ∧ S.key (tab pos) ≠ some key := by
  rw [stops, Bool.or_eq_false_iff, beq_eq_false_iff_ne]

/-- Where a key's search ends, and the first slot on its way that may be taken. -/
def claim (S : Scheme σ κ) (free : σ → Bool) (tab : Nat → σ) (key : κ) : Option Nat × Option Nat :=
  survey S.next (S.stops tab key) (fun pos => free (tab pos)) S.size (S.home key) none

theorem claim_fst : (S.claim free tab key).1 = S.find tab key := survey_fst none

/-- The slot a claim remembers may be taken, holds another key or none, and no vacant slot precedes
it on the key's probe sequence. -/
theorem Lawful.claim_snd (law : S.Lawful) (remembered : (S.claim free tab key).2 = some pos) :
    pos < S.size ∧ free (tab pos) = true ∧ S.vacant (tab pos) = false ∧
      S.key (tab pos) ≠ some key ∧ ∃ k < S.size, S.next^[k] (S.home key) = pos ∧
        ∀ j < k, S.vacant (tab (S.next^[j] (S.home key))) = false := by
  obtain ⟨k, bound, rfl, opens, before⟩ := survey_snd_some remembered
  have passed : ∀ j ≤ k, S.vacant (tab (S.next^[j] (S.home key))) = false ∧
      S.key (tab (S.next^[j] (S.home key))) ≠ some key :=
    fun j small => stops_eq_false.mp (before j small)
  exact ⟨law.probe_inside key k, opens, (passed k (Nat.le_refl k)).1, (passed k (Nat.le_refl k)).2,
    k, bound, rfl, fun j small => (passed j (Nat.le_of_lt small)).1⟩

theorem Lawful.claim_full (law : S.Lawful) (nowhere : (S.claim free tab key).1 = none)
    (nothing : (S.claim free tab key).2 = none) (inside : pos < S.size) :
    S.vacant (tab pos) = false ∧ S.key (tab pos) ≠ some key ∧ free (tab pos) = false := by
  have passed : ∀ k < S.size, S.stops tab key (S.next^[k] (S.home key)) = false := by
    intro k bound
    rw [← Bool.not_eq_true]
    intro stopped
    obtain ⟨last, ended⟩ := walk_isSome bound stopped
    rw [claim, survey_fst, ended] at nowhere
    cases nowhere
  obtain ⟨k, bound, rfl⟩ := law.reaches _ (law.home_inside key) pos inside
  have here := stops_eq_false.mp (passed k bound)
  refine ⟨here.1, here.2, ?_⟩
  exact survey_snd_none nothing bound fun j small => passed j (by omega)

/-- Storing a fresh key on its probe sequence, before any vacant slot, loses only what was stored
there. -/
theorem Sound.lookup_settle (sound : S.Sound tab) (fresh : ∀ held, ¬ S.Holds tab key held)
    (inside : pos < S.size) (chain : ∃ k < S.size, S.next^[k] (S.home key) = pos ∧
      ∀ j < k, S.vacant (tab (S.next^[j] (S.home key))) = false) (owns : S.key slot = some key)
    (wanted : κ) :
    S.lookup (update tab pos slot) wanted =
      if wanted = key then some slot
      else if S.key (tab pos) = some wanted then none else S.lookup tab wanted := by
  have settled := sound.settle fresh chain owns
  by_cases same : wanted = key
  · rw [if_pos same, same]
    exact settled.lookup_eq_some.mpr ⟨pos, inside, update_self .., owns⟩
  rw [if_neg same]
  have elsewhere : ∀ other, S.key (update tab pos slot other) = some wanted →
      other ≠ pos ∧ S.key (tab other) = some wanted := by
    intro other held
    by_cases here : other = pos
    · rw [here, update_self, owns, Option.some.injEq] at held
      exact absurd held.symm same
    · rw [update_of_ne here] at held
      exact ⟨here, held⟩
  by_cases lost : S.key (tab pos) = some wanted
  · rw [if_pos lost]
    refine Option.eq_none_iff_forall_ne_some.mpr fun held looked => ?_
    obtain ⟨other, otherInside, rfl, otherHeld⟩ := settled.lookup_eq_some.mp looked
    obtain ⟨apart, before⟩ := elsewhere other otherHeld
    exact apart (sound.unique other otherInside pos inside wanted before lost)
  · rw [if_neg lost]
    ext held
    rw [settled.lookup_eq_some, sound.lookup_eq_some]
    constructor
    · rintro ⟨other, otherInside, rfl, otherHeld⟩
      obtain ⟨apart, before⟩ := elsewhere other otherHeld
      rw [update_of_ne apart]
      exact ⟨other, otherInside, rfl, before⟩
    · rintro ⟨other, otherInside, rfl, otherHeld⟩
      have apart : other ≠ pos := by
        rintro rfl
        exact lost otherHeld
      exact ⟨other, otherInside, update_of_ne apart .., otherHeld⟩

theorem Sound.lookup_bury (sound : S.Sound tab) (inside : pos < S.size)
    (held : S.key (tab pos) = some key) (occupied : S.vacant slot = false)
    (unkeyed : S.key slot = none) :
    S.lookup (update tab pos slot) = update (S.lookup tab) key none := by
  have buried := @Sound.bury _ _ _ _ _ pos sound occupied unkeyed
  funext wanted
  ext found
  rw [buried.lookup_eq_some, holds_bury unkeyed]
  by_cases same : wanted = key
  · subst same
    rw [update_self]
    constructor
    · rintro ⟨other, otherInside, apart, rfl, otherHeld⟩
      exact absurd (sound.unique other otherInside pos inside wanted otherHeld held) apart
    · intro none_
      cases none_
  · rw [update_of_ne same, sound.lookup_eq_some]
    constructor
    · rintro ⟨other, otherInside, -, rfl, otherHeld⟩
      exact ⟨other, otherInside, rfl, otherHeld⟩
    · rintro ⟨other, otherInside, rfl, otherHeld⟩
      refine ⟨other, otherInside, ?_, rfl, otherHeld⟩
      rintro rfl
      rw [held, Option.some.injEq] at otherHeld
      exact same otherHeld.symm

/-- Changing what slots hold besides their keys keeps the table sound, and changes what is looked up
in the same way. -/
theorem Sound.recast (sound : S.Sound tab) {f : σ → σ} {tab' : Nat → σ}
    (recasts : ∀ pos < S.size, tab' pos = f (tab pos))
    (key_same : ∀ pos < S.size, S.key (f (tab pos)) = S.key (tab pos))
    (vacant_same : ∀ pos < S.size, S.vacant (f (tab pos)) = S.vacant (tab pos)) :
    S.Sound tab' ∧ ∀ key, S.lookup tab' key = (S.lookup tab key).map f := by
  have keys : ∀ pos < S.size, S.key (tab' pos) = S.key (tab pos) := by
    intro pos inside
    rw [recasts pos inside, key_same pos inside]
  have recast : S.Sound tab' := by
    refine ⟨sound.law, ?_, ?_⟩
    · intro pos inside key held
      rw [keys pos inside] at held
      obtain ⟨k, bound, landed, chain⟩ := sound.chained pos inside key held
      refine ⟨k, bound, landed, fun j small => ?_⟩
      have within := sound.law.probe_inside key j
      rw [recasts _ within, vacant_same _ within]
      exact chain j small
    · intro pos inside other otherInside key held otherHeld
      rw [keys pos inside] at held
      rw [keys other otherInside] at otherHeld
      exact sound.unique pos inside other otherInside key held otherHeld
  refine ⟨recast, fun key => ?_⟩
  ext slot
  rw [recast.lookup_eq_some, Option.map_eq_some_iff]
  constructor
  · rintro ⟨pos, inside, rfl, held⟩
    rw [keys pos inside] at held
    exact ⟨tab pos, sound.lookup_held inside held, (recasts pos inside).symm⟩
  · rintro ⟨before, looked, rfl⟩
    obtain ⟨pos, inside, rfl, held⟩ := sound.lookup_eq_some.mp looked
    exact ⟨pos, inside, recasts pos inside, (key_same pos inside).trans held⟩

omit [DecidableEq κ] in
theorem Lawful.keyed_subset (law : S.Lawful) :
    (Finset.range S.size).filter (fun pos => (S.key (tab pos)).isSome = true) ⊆
      (Finset.range S.size).filter fun pos => S.vacant (tab pos) = false := by
  intro pos member
  rw [Finset.mem_filter] at member ⊢
  obtain ⟨key, owns⟩ := Option.isSome_iff_exists.mp member.2
  exact ⟨member.1, law.occupied_of_key owns⟩

omit [DecidableEq κ] in
theorem Lawful.keyed_le_load (law : S.Lawful) : S.keyed tab S.size ≤ S.load tab :=
  Finset.card_le_card law.keyed_subset

omit [DecidableEq κ] in
theorem Lawful.keyed_of_load_le (law : S.Lawful) (tight : S.load tab ≤ S.keyed tab S.size)
    (inside : pos < S.size) (occupied : S.vacant (tab pos) = false) :
    (S.key (tab pos)).isSome = true := by
  have member : pos ∈ (Finset.range S.size).filter fun pos => S.vacant (tab pos) = false :=
    Finset.mem_filter.mpr ⟨Finset.mem_range.mpr inside, occupied⟩
  rw [← Finset.eq_of_subset_of_card_le law.keyed_subset tight] at member
  exact (Finset.mem_filter.mp member).2

omit [DecidableEq κ] in
theorem load_update (inside : pos < S.size) (slot : σ) :
    S.load (update tab pos slot) + (if S.vacant (tab pos) = false then 1 else 0) =
      S.load tab + (if S.vacant slot = false then 1 else 0) :=
  card_update inside (fun slot => S.vacant slot = false) tab slot

omit [DecidableEq κ] in
theorem keyed_update {count : Nat} (inside : pos < count) (slot : σ) :
    S.keyed (update tab pos slot) count + (if (S.key (tab pos)).isSome then 1 else 0) =
      S.keyed tab count + (if (S.key slot).isSome then 1 else 0) :=
  card_update inside (fun slot => (S.key slot).isSome = true) tab slot

end Scheme

namespace Hashing.Arrayed

variable {σ κ : Type} [DecidableEq κ] {H : Hashing σ κ} {tab : Nat → σ} {capacity : Nat} {key : κ}
  {pos : Nat} {slot : σ}

theorem settle (arrayed : H.Arrayed tab capacity) (missing : H.tracked tab capacity key = none)
    (inside : pos < capacity) (unkeyed : H.key (tab pos) = none)
    (chain : ∃ k < capacity, (H.masked capacity).next^[k] ((H.masked capacity).home key) = pos ∧
      ∀ j < k, H.vacant (tab ((H.masked capacity).next^[j] ((H.masked capacity).home key))) = false)
    (owns : H.key slot = some key) :
    H.Arrayed (update tab pos slot) capacity ∧
      H.tracked (update tab pos slot) capacity =
        update (H.tracked tab capacity) key (some slot) := by
  have sound := arrayed.sound (by omega)
  have fresh : ∀ held, ¬ (H.masked capacity).Holds tab key held := by
    intro held holds
    have tracked : H.tracked tab capacity key = some held := sound.lookup_eq_some.mpr holds
    rw [missing] at tracked
    cases tracked
  refine ⟨⟨arrayed.shape, fun _ => sound.settle fresh chain owns⟩, ?_⟩
  funext wanted
  have lost : (H.masked capacity).key (tab pos) ≠ some wanted := by
    change H.key (tab pos) ≠ _
    rw [unkeyed]
    simp
  have looked := sound.lookup_settle fresh inside chain owns wanted
  rw [if_neg lost] at looked
  rw [update_apply]
  exact looked

theorem bury (arrayed : H.Arrayed tab capacity) (inside : pos < capacity)
    (held : H.key (tab pos) = some key) (occupied : H.vacant slot = false)
    (unkeyed : H.key slot = none) :
    H.Arrayed (update tab pos slot) capacity ∧
      H.tracked (update tab pos slot) capacity =
        update (H.tracked tab capacity) key none := by
  have sound := arrayed.sound (by omega)
  exact ⟨⟨arrayed.shape, fun _ => sound.bury occupied unkeyed⟩,
    sound.lookup_bury inside held occupied unkeyed⟩

end Hashing.Arrayed

end Vmctx.Table
