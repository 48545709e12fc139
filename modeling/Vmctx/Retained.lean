import Vmctx.Machine
import Vmctx.System.Run
import Vmctx.Table.Reusing
/-!
# The last transmitted bytes of a page

The executor remembers the bytes of every page it transmits, under the address space and the page,
in an array of fixed size that is allocated by the first of them. Forgetting a range of addresses
only clears the flag of the entries in it. Such an entry keeps its key and is found by it, until an
insertion of another key that passes it takes it.

The calls are made for pages other than page zero. `log` lists them, latest first, with whether a
put found a slot; no call reads it.
-/

namespace Vmctx.Retained

open Table Vmctx.System Function

/-! The table. -/

/-- `struct retain_ent`. -/
structure RetainEnt where
  page : UInt64
  as : UInt64
  live : Bool
  gen : UInt32
  bytes : PageBytes

def retainSlots : Nat := 2 ^ 15

def unused : RetainEnt := ⟨0, 0, false, 0, zeroPage⟩

def retainHash (as page : UInt64) : UInt64 :=
  (as * (1099511628211 : UInt64)) ^^^ ((page >>> 12) * (14695981039346656037 : UInt64))

def retainAt (h : UInt64) (i : Nat) : Nat := ((h + UInt64.ofNat i) % 32768).toNat

def RetainEnt.named (e : RetainEnt) (as page : UInt64) : Prop :=
  e.page = page ∧ e.as = as ∧ (e.live = true ∨ e.page ≠ 0)

instance (e : RetainEnt) (as page : UInt64) : Decidable (e.named as page) :=
  inferInstanceAs (Decidable (_ ∧ _))

/-- The loop of `retain_find`, with the rounds left. The answer is an entry and whether it is to be
given the key. -/
def retainLoop (tab : Nat → RetainEnt) (as page : UInt64) (create : Bool) :
    Nat → Nat → Option Nat → Option (Nat × Bool)
  | 0, _, tomb => if create then tomb.map (·, true) else none
  | left + 1, i, tomb =>
    let at_ := retainAt (retainHash as page) i
    if (tab at_).named as page then some (at_, false)
    else if (tab at_).page = 0 ∧ (tab at_).live = false then
      if create then some (tomb.getD at_, true) else none
    else
      retainLoop tab as page create left (i + 1)
        (if create = true ∧ (tab at_).live = false ∧ tomb = none then some at_ else tomb)

/-- The table that `retain_find` searches, allocated if it may be. -/
def retainTab (tab : Option (Nat → RetainEnt)) (allocated : Bool) : Option (Nat → RetainEnt) :=
  match tab with
  | some tab => some tab
  | none => if allocated then some fun _ => unused else none

/-- `retain_find`. -/
def retainFind (tab : Nat → RetainEnt) (as page : UInt64) (create : Bool) :
    Option ((Nat → RetainEnt) × Nat) :=
  (retainLoop tab as page create retainSlots 0 none).map fun (at_, claims) =>
    (if claims then update tab at_ { tab at_ with page := page, as := as } else tab, at_)

/-- `retain_put`, with the generation of the page: the table, and whether a slot was found. -/
def retainPut (tab : Option (Nat → RetainEnt)) (as addr : UInt64) (bytes : PageBytes) (gen : UInt32)
    (allocated : Bool) : Option (Nat → RetainEnt) × Bool :=
  match retainTab tab allocated with
  | none => (none, false)
  | some tab =>
    match retainFind tab as (pageBase addr) true with
    | none => (some tab, false)
    | some (tab, at_) =>
      let e := { tab at_ with bytes := bytes, live := true, gen := gen }
      (some (update tab at_ e), true)

/-- `retain_get_gen`. -/
def retainGetGen (tab : Option (Nat → RetainEnt)) (as addr : UInt64) :
    Option (PageBytes × UInt32) :=
  tab.bind fun tab => (retainFind tab as (pageBase addr) false).bind fun (tab, at_) =>
    if (tab at_).live then some ((tab at_).bytes, (tab at_).gen) else none

/-- The body of the loop of `retain_forget`, after the start was rounded down. -/
def RetainEnt.forget (as start end_ : UInt64) (e : RetainEnt) : RetainEnt :=
  if e.live = true ∧ e.as = as ∧ start ≤ e.page ∧ e.page < end_ then { e with live := false } else e

def forgetFirst (tab : Nat → RetainEnt) (as start end_ : UInt64) : Nat → Nat → RetainEnt
  | 0 => tab
  | i + 1 =>
    update (forgetFirst tab as start end_ i) i
      ((forgetFirst tab as start end_ i i).forget as start end_)

/-- `retain_forget`. -/
def retainForget (tab : Option (Nat → RetainEnt)) (as start end_ : UInt64) :
    Option (Nat → RetainEnt) :=
  if end_ ≤ start then tab
  else tab.map fun tab => forgetFirst tab as (pageBase start) end_ retainSlots

/-! Sessions. -/

inductive Event
  | put (as page : UInt64) (bytes : PageBytes) (gen : UInt32) (stored : Bool)
  | forget (as start end_ : UInt64)

def covers (as start end_ : UInt64) (key : UInt64 × UInt64) : Prop :=
  key.1 = as ∧ start < end_ ∧ pageBase start ≤ key.2 ∧ key.2 < end_

instance (as start end_ : UInt64) (key : UInt64 × UInt64) : Decidable (covers as start end_ key) :=
  inferInstanceAs (Decidable (_ ∧ _))

/-- The bytes and the generation of the last put of a key, unless a later call forgot the page. -/
def lastPut (key : UInt64 × UInt64) : List Event → Option (PageBytes × UInt32)
  | [] => none
  | .put as page bytes gen stored :: rest =>
    if key = (as, page) ∧ stored = true then some (bytes, gen) else lastPut key rest
  | .forget as start end_ :: rest => if covers as start end_ key then none else lastPut key rest

structure Session where
  tab : Option (Nat → RetainEnt)
  log : List Event

def Session.start : Session := ⟨none, []⟩

/-- The calls, with the generation of the page and whether an allocation succeeds. -/
inductive Label
  | put (as addr : UInt64) (bytes : PageBytes) (gen : UInt32) (allocated : Bool)
  | get (as addr : UInt64)
  | forget (as start end_ : UInt64)

def Session.next (s : Session) : Label → Option Session
  | .put as addr bytes gen allocated =>
    if pageBase addr = 0 then none
    else
      some ⟨(retainPut s.tab as addr bytes gen allocated).1,
        .put as (pageBase addr) bytes gen (retainPut s.tab as addr bytes gen allocated).2 :: s.log⟩
  | .get _ addr => if pageBase addr = 0 then none else some s
  | .forget as start end_ => some ⟨retainForget s.tab as start end_, .forget as start end_ :: s.log⟩

abbrev Session.Step : Session → Label → Session → Prop := Computed Session.next

/-! The loop is a search. -/

def retaining : Scheme RetainEnt (UInt64 × UInt64) where
  size := retainSlots
  next pos := (pos + 1) % retainSlots
  home key := retainAt (retainHash key.1 key.2) 0
  key e := if e.page = 0 then none else some (e.as, e.page)
  vacant e := e.page == 0 && !e.live

variable {tab tab' : Nat → RetainEnt} {as page : UInt64} {key : UInt64 × UInt64} {e : RetainEnt}

theorem retaining_lawful : retaining.Lawful := by
  have positive : 0 < retainSlots := by decide
  refine ⟨?_, ?_, ?_, ?_⟩
  · intro e vacant
    have parts : (e.page == 0) = true ∧ (!e.live) = true := Bool.and_eq_true_iff.mp vacant
    exact if_pos (eq_of_beq parts.1)
  · intro key
    change ((retainHash key.1 key.2 + UInt64.ofNat 0) % 32768).toNat < 2 ^ 15
    rw [UInt64.toNat_mod]
    exact Nat.mod_lt _ (by decide)
  · intro pos _
    exact Nat.mod_lt _ positive
  · intro pos inside target targetInside
    exact cyclic_reaches retainSlots pos target inside targetInside

theorem retainAt_succ (h : UInt64) (i : Nat) :
    retainAt h (i + 1) = retaining.next (retainAt h i) := by
  change ((h + UInt64.ofNat (i + 1)) % 32768).toNat =
    (((h + UInt64.ofNat i) % 32768).toNat + 1) % 2 ^ 15
  simp only [UInt64.toNat_mod, UInt64.toNat_add, UInt64.toNat_ofNat', UInt64.reduceToNat]
  omega

theorem named_iff (real : page ≠ 0) : e.named as page ↔ retaining.key e = some (as, page) := by
  change _ ↔ (if e.page = 0 then none else some (e.as, e.page)) = some (as, page)
  unfold RetainEnt.named
  by_cases zero : e.page = 0
  · simp [zero, real.symm]
  · simp [zero, and_comm]

theorem vacant_iff : retaining.vacant e = true ↔ e.page = 0 ∧ e.live = false := by
  change (e.page == 0 && !e.live) = true ↔ _
  simp

/-- The entry that the loop answers, from where the search ends and the first tombstone. -/
def answer (tab : Nat → RetainEnt) (key : UInt64 × UInt64) (create : Bool) :
    Option Nat × Option Nat → Option (Nat × Bool)
  | (some pos, tomb) =>
    if retaining.key (tab pos) = some key then some (pos, false)
    else if create then some (tomb.getD pos, true) else none
  | (none, tomb) => if create then tomb.map (·, true) else none

theorem retainLoop_eq (real : page ≠ 0) (create : Bool) (left i : Nat) (tomb : Option Nat) :
    retainLoop tab as page create left i tomb =
      answer tab (as, page) create
        (survey retaining.next (retaining.stops tab (as, page))
          (fun pos => create && !(tab pos).live) left (retainAt (retainHash as page) i) tomb) := by
  induction left generalizing i tomb with
  | zero => rfl
  | succ left ih =>
    unfold retainLoop survey
    simp only [named_iff real]
    by_cases owns : retaining.key (tab (retainAt (retainHash as page) i)) = some (as, page)
    · have stopped : retaining.stops tab (as, page) (retainAt (retainHash as page) i) = true := by
        simp [Scheme.stops, owns]
      rw [if_pos owns, if_pos stopped, answer, if_pos owns]
    · rw [if_neg owns]
      by_cases vacant : retaining.vacant (tab (retainAt (retainHash as page) i)) = true
      · have stopped : retaining.stops tab (as, page) (retainAt (retainHash as page) i) = true := by
          simp [Scheme.stops, vacant]
        rw [if_pos (vacant_iff.mp vacant), if_pos stopped, answer, if_neg owns]
      · have passed :
            ¬ retaining.stops tab (as, page) (retainAt (retainHash as page) i) = true := by
          simp [Scheme.stops, vacant, owns]
        rw [if_neg (mt vacant_iff.mpr vacant), if_neg passed, ih, retainAt_succ]
        congr 2
        cases tomb <;> cases create <;>
          cases (tab (retainAt (retainHash as page) i)).live <;> rfl

theorem retainLoop_claim (real : page ≠ 0) :
    retainLoop tab as page true retainSlots 0 none =
      answer tab (as, page) true (retaining.claim (fun e => !e.live) tab (as, page)) := by
  rw [retainLoop_eq real]
  rfl

theorem retainLoop_find (real : page ≠ 0) :
    retainLoop tab as page false retainSlots 0 none =
      (retaining.find tab (as, page)).bind fun pos =>
        if retaining.key (tab pos) = some (as, page) then some (pos, false) else none := by
  rw [retainLoop_eq real]
  have ended : (survey retaining.next (retaining.stops tab (as, page))
      (fun pos => false && !(tab pos).live) retainSlots (retainAt (retainHash as page) 0) none).1 =
        retaining.find tab (as, page) := survey_fst none
  revert ended
  generalize survey retaining.next (retaining.stops tab (as, page))
    (fun pos => false && !(tab pos).live) retainSlots (retainAt (retainHash as page) 0) none =
      outcome
  intro ended
  obtain ⟨last, tomb⟩ := outcome
  rw [← ended]
  cases last with
  | none => rfl
  | some pos => rfl

/-! What the table keeps. -/

def live (e : RetainEnt) : Option (PageBytes × UInt32) :=
  if e.live then some (e.bytes, e.gen) else none

def answers (tab : Nat → RetainEnt) (key : UInt64 × UInt64) : Option (PageBytes × UInt32) :=
  (retaining.lookup tab key).bind live

/-- The table holds what a history of calls retains. -/
structure Holds (tab : Nat → RetainEnt) (log : List Event) : Prop where
  /-- Every key can be reached from its home, and has one entry. -/
  sound : retaining.Sound tab
  /-- No live entry is of page zero. -/
  named : ∀ pos < retainSlots, (tab pos).live = true → (tab pos).page ≠ 0
  /-- Every other key has what was put last. -/
  exact_ : ∀ key, key.2 ≠ 0 → answers tab key = lastPut key log

variable {log : List Event} {bytes : PageBytes} {gen : UInt32}

theorem Holds.fresh (none_ : ∀ key, key.2 ≠ 0 → lastPut key log = none) :
    Holds (fun _ => unused) log := by
  have noKey : ∀ key, retaining.key unused ≠ some key := by
    intro key held
    cases held
  have sound : retaining.Sound fun _ => unused :=
    ⟨retaining_lawful, fun _ _ key held => absurd held (noKey key),
      fun _ _ _ _ key held => absurd held (noKey key)⟩
  refine ⟨sound, fun _ _ isLive => absurd isLive Bool.false_ne_true, fun key real => ?_⟩
  rw [none_ key real, answers, Option.bind_eq_none_iff]
  intro e looked
  obtain ⟨_, _, rfl, held⟩ := sound.lookup_eq_some.mp looked
  exact absurd held (noKey key)

theorem retainFind_get (real : page ≠ 0) :
    ((retainFind tab as page false).bind fun (tab, at_) =>
      if (tab at_).live then some ((tab at_).bytes, (tab at_).gen) else none) =
      answers tab (as, page) := by
  unfold retainFind answers Scheme.lookup
  rw [retainLoop_find real]
  cases retaining.find tab (as, page) with
  | none => rfl
  | some pos =>
    simp only [Option.bind_some]
    split
    · rfl
    · rfl

abbrev entry (as page : UInt64) (bytes : PageBytes) (gen : UInt32) : RetainEnt :=
  ⟨page, as, true, gen, bytes⟩

theorem entry_key (real : page ≠ 0) :
    retaining.key (entry as page bytes gen) = some (as, page) := if_neg real

theorem Holds.replace (holds : Holds tab log) {pos : Nat} (inside : pos < retainSlots)
    (real : page ≠ 0) (owns : retaining.key (tab pos) = some (as, page)) :
    Holds (update tab pos (entry as page bytes gen))
      (.put as page bytes gen true :: log) := by
  have key := @entry_key as page bytes gen real
  refine ⟨holds.sound.replace owns key, ?_, ?_⟩
  · intro other otherInside isLive
    by_cases same : other = pos
    · rw [same, update_self]
      exact real
    · rw [update_of_ne same] at isLive ⊢
      exact holds.named other otherInside isLive
  · intro wanted nonzero
    unfold answers
    rw [holds.sound.lookup_replace inside owns key, update_apply]
    by_cases same : wanted = (as, page)
    · rw [if_pos same, lastPut, if_pos ⟨same, rfl⟩]
      rfl
    · rw [if_neg same, lastPut, if_neg fun both => same both.1]
      exact holds.exact_ wanted nonzero

theorem Holds.settle (holds : Holds tab log) {pos : Nat} (inside : pos < retainSlots)
    (real : page ≠ 0) (dead : (tab pos).live = false)
    (fresh : ∀ held, ¬ retaining.Holds tab (as, page) held)
    (chain : ∃ k < retaining.size, retaining.next^[k] (retaining.home (as, page)) = pos ∧
      ∀ j < k, retaining.vacant (tab (retaining.next^[j] (retaining.home (as, page)))) = false) :
    Holds (update tab pos (entry as page bytes gen))
      (.put as page bytes gen true :: log) := by
  have key := @entry_key as page bytes gen real
  refine ⟨holds.sound.settle fresh chain key, ?_, ?_⟩
  · intro other otherInside isLive
    by_cases same : other = pos
    · rw [same, update_self]
      exact real
    · rw [update_of_ne same] at isLive ⊢
      exact holds.named other otherInside isLive
  · intro wanted nonzero
    unfold answers
    rw [holds.sound.lookup_settle fresh inside chain key]
    by_cases same : wanted = (as, page)
    · rw [if_pos same, lastPut, if_pos ⟨same, rfl⟩]
      rfl
    have other : ¬ (wanted = (as, page) ∧ true = true) := fun both => same both.1
    rw [if_neg same, lastPut, if_neg other, ← holds.exact_ wanted nonzero]
    by_cases lost : retaining.key (tab pos) = some wanted
    · -- The key that loses its entry had no bytes.
      have looked := holds.sound.lookup_held inside lost
      rw [if_pos lost, answers, looked, Option.bind_some, live, dead]
      rfl
    · rw [if_neg lost]
      rfl

theorem Holds.fresh_of_find (holds : Holds tab log)
    (missing : ∀ pos, retaining.find tab key = some pos → retaining.key (tab pos) ≠ some key)
    (held : RetainEnt) : ¬ retaining.Holds tab key held := by
  rintro ⟨pos, inside, rfl, owns⟩
  exact missing pos (holds.sound.find_held inside owns) owns

theorem update_entry (tab : Nat → RetainEnt) (at_ : Nat) (claims : Bool)
    (owns : claims = false → retaining.key (tab at_) = some (as, page)) :
    let claimed := if claims then update tab at_ { tab at_ with page := page, as := as }
      else tab
    update claimed at_ { claimed at_ with bytes := bytes, live := true, gen := gen } =
      update tab at_ (entry as page bytes gen) := by
  cases claims with
  | true => simp
  | false =>
    have key := owns rfl
    change (if (tab at_).page = 0 then none else some ((tab at_).as, (tab at_).page)) = _ at key
    split at key
    · cases key
    · cases key
      rfl

structure Takes (tab : Nat → RetainEnt) (key : UInt64 × UInt64) (pos : Nat) : Prop where
  inside : pos < retainSlots
  dead : (tab pos).live = false
  chain : ∃ k < retaining.size, retaining.next^[k] (retaining.home key) = pos ∧
    ∀ j < k, retaining.vacant (tab (retaining.next^[j] (retaining.home key))) = false

/-- What the loop answers when it may create: the entry of the key, an entry to take for a key that
is not held, or nothing when every entry holds the bytes of another key. -/
theorem Holds.answer_cases (holds : Holds tab log) (real : page ≠ 0) :
    (∃ pos < retainSlots, retainLoop tab as page true retainSlots 0 none = some (pos, false) ∧
      retaining.key (tab pos) = some (as, page)) ∨
    (∃ pos, retainLoop tab as page true retainSlots 0 none = some (pos, true) ∧
      Takes tab (as, page) pos ∧ ∀ held, ¬ retaining.Holds tab (as, page) held) ∨
    (retainLoop tab as page true retainSlots 0 none = none ∧
      ∀ pos < retainSlots, (tab pos).live = true ∧ retaining.key (tab pos) ≠ some (as, page)) := by
  have law := holds.sound.law
  rw [retainLoop_claim real]
  have ended : (retaining.claim (fun e => !e.live) tab (as, page)).1 =
      retaining.find tab (as, page) := Scheme.claim_fst
  have tombs : ∀ r, (retaining.claim (fun e => !e.live) tab (as, page)).2 = some r →
      Takes tab (as, page) r := by
    intro r remembered
    obtain ⟨inside, free, -, -, chain⟩ := law.claim_snd remembered
    exact ⟨inside, Bool.not_eq_true' _ ▸ free, chain⟩
  have full := fun nowhere nothing pos inside =>
    @Scheme.Lawful.claim_full _ _ _ retaining tab (as, page) pos (fun e => !e.live) law nowhere
      nothing inside
  generalize retaining.claim (fun e => !e.live) tab (as, page) = outcome at ended tombs full ⊢
  obtain ⟨last, tomb⟩ := outcome
  cases last with
  | some pos =>
    have found : retaining.find tab (as, page) = some pos := ended.symm
    by_cases owns : retaining.key (tab pos) = some (as, page)
    · exact .inl ⟨pos, law.find_inside found, if_pos owns, owns⟩
    · obtain ⟨placed, fresh⟩ := holds.sound.find_missing found owns
      obtain ⟨inside, vacant, chain⟩ := law.place_spec placed
      refine .inr (.inl ⟨tomb.getD pos, if_neg owns, ?_, fresh⟩)
      cases tomb with
      | none => exact ⟨inside, (vacant_iff.mp vacant).2, chain⟩
      | some r => exact tombs r rfl
  | none =>
    have nowhere : retaining.find tab (as, page) = none := ended.symm
    cases tomb with
    | some r =>
      refine .inr (.inl ⟨r, rfl, tombs r rfl, holds.fresh_of_find fun pos found => ?_⟩)
      rw [nowhere] at found
      cases found
    | none =>
      refine .inr (.inr ⟨rfl, fun pos inside => ?_⟩)
      obtain ⟨-, other, busy⟩ := full rfl rfl pos inside
      exact ⟨Bool.not_eq_false' _ ▸ busy, other⟩

/-- What a put on an allocated table does: it stores, or every entry holds the bytes of another
key. -/
theorem Holds.put (holds : Holds tab log) (real : page ≠ 0) (as : UInt64) (bytes : PageBytes)
    (gen : UInt32) :
    (∃ tab' at_, retainFind tab as page true = some (tab', at_) ∧
      Holds (update tab' at_ { tab' at_ with bytes := bytes, live := true, gen := gen })
        (.put as page bytes gen true :: log)) ∨
    (retainFind tab as page true = none ∧
      ∀ pos < retainSlots, (tab pos).live = true ∧ retaining.key (tab pos) ≠ some (as, page)) := by
  unfold retainFind
  rcases holds.answer_cases real with
    ⟨pos, inside, looped, owns⟩ | ⟨pos, looped, takes, fresh⟩ | ⟨looped, full⟩
  · refine .inl ⟨_, _, by rw [looped]; rfl, ?_⟩
    rw [update_entry tab pos false fun _ => owns]
    exact holds.replace inside real owns
  · refine .inl ⟨_, _, by rw [looped]; rfl, ?_⟩
    rw [update_entry tab pos true fun no => absurd no (by decide)]
    exact holds.settle takes.inside real takes.dead fresh takes.chain
  · exact .inr ⟨by rw [looped]; rfl, full⟩

theorem forgetFirst_eq (as start end_ : UInt64) (i pos : Nat) :
    forgetFirst tab as start end_ i pos =
      if pos < i then (tab pos).forget as start end_ else tab pos := by
  induction i with
  | zero => rfl
  | succ i ih =>
    unfold forgetFirst
    by_cases last : pos = i
    · subst last
      rw [update_self, ih, if_neg (Nat.lt_irrefl _), if_pos (Nat.lt_succ_self _)]
    · rw [update_of_ne last, ih]
      by_cases below : pos < i
      · rw [if_pos below, if_pos (by omega)]
      · rw [if_neg below, if_neg (by omega)]

theorem forget_page (as start end_ : UInt64) : (e.forget as start end_).page = e.page := by
  unfold RetainEnt.forget
  split <;> rfl

theorem forget_key (as start end_ : UInt64) :
    retaining.key (e.forget as start end_) = retaining.key e := by
  unfold RetainEnt.forget
  split <;> rfl

theorem live_forget {start end_ : UInt64} (owns : retaining.key e = some key)
    (real : start < end_) :
    live (e.forget as (pageBase start) end_) =
      if covers as start end_ key then none else live e := by
  change (if e.page = 0 then none else some (e.as, e.page)) = some key at owns
  split at owns
  · cases owns
  cases owns
  unfold RetainEnt.forget covers live
  by_cases isLive : e.live = true
  · by_cases mine : e.as = as ∧ pageBase start ≤ e.page ∧ e.page < end_
    · simp [isLive, mine, real]
    · simp [isLive, mine, real]
  · simp [isLive]

theorem Holds.forget (holds : Holds tab log) {start end_ : UInt64} (real : start < end_) :
    Holds (forgetFirst tab as (pageBase start) end_ retainSlots)
      (.forget as start end_ :: log) := by
  have changed : ∀ pos < retainSlots, forgetFirst tab as (pageBase start) end_ retainSlots pos =
      (tab pos).forget as (pageBase start) end_ := by
    intro pos inside
    rw [forgetFirst_eq, if_pos inside]
  have stays : ∀ pos < retainSlots,
      retaining.vacant ((tab pos).forget as (pageBase start) end_) =
        retaining.vacant (tab pos) := by
    intro pos inside
    rw [Bool.eq_iff_iff, vacant_iff, vacant_iff, forget_page]
    unfold RetainEnt.forget
    split
    · next forgotten =>
      have page := holds.named pos inside forgotten.1
      simp [page]
    · rfl
  obtain ⟨sound, looked⟩ :=
    holds.sound.recast changed (fun pos _ => forget_key as (pageBase start) end_) stays
  refine ⟨sound, ?_, ?_⟩
  · intro pos inside isLive
    rw [changed pos inside] at isLive ⊢
    rw [forget_page]
    refine holds.named pos inside ?_
    unfold RetainEnt.forget at isLive
    split at isLive
    · cases isLive
    · exact isLive
  · intro key nonzero
    rw [lastPut, ← holds.exact_ key nonzero, answers, answers, looked]
    cases held : retaining.lookup tab key with
    | none => simp
    | some e =>
      obtain ⟨pos, inside, rfl, owns⟩ := holds.sound.lookup_eq_some.mp held
      exact live_forget owns real

/-! What every session keeps. -/

structure Session.Kept (s : Session) : Prop where
  holds : ∀ tab, s.tab = some tab → Holds tab s.log
  nothing : s.tab = none → ∀ key, key.2 ≠ 0 → lastPut key s.log = none

variable {s s' : Session} {l : Label}

/-- The table a put searches: none can be allocated, or it answers the last puts, and it is fresh
unless it was there before. -/
theorem Session.Kept.allocate (kept : s.Kept) (allocated : Bool) :
    (retainTab s.tab allocated = none ∧ s.tab = none ∧ allocated = false) ∨
      ∃ tab, retainTab s.tab allocated = some tab ∧ Holds tab s.log ∧
        (s.tab = some tab ∨ tab = fun _ => unused) := by
  cases before : s.tab with
  | some tab => exact .inr ⟨tab, rfl, kept.holds tab before, .inl rfl⟩
  | none =>
    cases allocated with
    | false => exact .inl ⟨rfl, rfl, rfl⟩
    | true => exact .inr ⟨_, rfl, Holds.fresh (kept.nothing before), .inr rfl⟩

theorem lastPut_refused (key : UInt64 × UInt64) :
    lastPut key (.put as page bytes gen false :: log) = lastPut key log :=
  if_neg fun both => Bool.false_ne_true both.2

theorem Session.Kept.put (kept : s.Kept) {addr : UInt64} (real : pageBase addr ≠ 0)
    (as : UInt64) (bytes : PageBytes) (gen : UInt32) (allocated : Bool) :
    ∃ tab' stored, retainPut s.tab as addr bytes gen allocated = (tab', stored) ∧
      Session.Kept ⟨tab', .put as (pageBase addr) bytes gen stored :: s.log⟩ ∧
      (stored = false → (s.tab = none ∧ allocated = false) ∨ ∃ tab, s.tab = some tab ∧
        ∀ pos < retainSlots, (tab pos).live = true ∧
          retaining.key (tab pos) ≠ some (as, pageBase addr)) := by
  unfold retainPut
  rcases kept.allocate allocated with ⟨made, missing⟩ | ⟨tab, made, holds, origin⟩
  · rw [made]
    refine ⟨none, false, rfl, ⟨?_, fun _ key nonzero => ?_⟩, fun _ => .inl missing⟩
    · intro tab same
      cases same
    · rw [lastPut_refused]
      exact kept.nothing missing.1 key nonzero
  · rw [made]
    rcases holds.put real as bytes gen with ⟨tab', at_, found, stored⟩ | ⟨refused, full⟩
    · refine ⟨some (update tab' at_
          { tab' at_ with bytes := bytes, live := true, gen := gen }), true,
        by simp only [found], ⟨fun other same => ?_, fun none_ => ?_⟩, fun no => ?_⟩
      · cases same
        exact stored
      · cases none_
      · cases no
    · refine ⟨some tab, false, by simp only [refused], ⟨fun other same => ?_, fun none_ => ?_⟩,
        fun _ => .inr ⟨tab, ?_, full⟩⟩
      · cases same
        refine ⟨holds.sound, holds.named, fun key nonzero => ?_⟩
        rw [lastPut_refused]
        exact holds.exact_ key nonzero
      · cases none_
      · rcases origin with before | rfl
        · exact before
        · -- A fresh table is not full.
          exact absurd (full 0 (by decide)).1 Bool.false_ne_true

theorem Session.Kept.forget (kept : s.Kept) (as start end_ : UInt64) :
    Session.Kept ⟨retainForget s.tab as start end_, .forget as start end_ :: s.log⟩ := by
  unfold retainForget
  by_cases empty : end_ ≤ start
  · have misses : ∀ key, ¬ covers as start end_ key :=
      fun key covered => UInt64.not_le.mpr covered.2.1 empty
    rw [if_pos empty]
    constructor
    · intro tab same
      have holds := kept.holds tab same
      refine ⟨holds.sound, holds.named, fun key nonzero => ?_⟩
      rw [lastPut, if_neg (misses key)]
      exact holds.exact_ key nonzero
    · intro none_ key nonzero
      rw [lastPut, if_neg (misses key)]
      exact kept.nothing none_ key nonzero
  · rw [if_neg empty]
    constructor
    · intro tab same
      obtain ⟨before, was, rfl⟩ := Option.map_eq_some_iff.mp same
      exact (kept.holds before was).forget (UInt64.not_le.mp empty)
    · intro none_ key nonzero
      have missing := kept.nothing (Option.map_eq_none_iff.mp none_) key nonzero
      rw [lastPut, missing, ite_self]

theorem Session.Kept.step (kept : s.Kept) (step : Session.Step s l s') : s'.Kept := by
  unfold Session.Step Computed at step
  cases l with
  | put as addr bytes gen allocated =>
    obtain ⟨real, same⟩ := Option.ite_none_left_eq_some.mp step
    obtain ⟨tab', stored, ran, after, -⟩ := kept.put real as bytes gen allocated
    rw [ran] at same
    cases same
    exact after
  | get as addr =>
    obtain ⟨-, same⟩ := Option.ite_none_left_eq_some.mp step
    cases same
    exact kept
  | forget as start end_ =>
    cases step
    exact kept.forget as start end_

theorem Session.Kept.start : Session.start.Kept :=
  ⟨fun _ same => absurd same (by simp [Session.start]), fun _ _ _ => rfl⟩

theorem Session.Kept.reached (run : Reach Session.Step Session.start s) : s.Kept :=
  run.invariant (fun _ _ _ kept step => kept.step step) Kept.start

theorem Session.Kept.get (kept : s.Kept) (as : UInt64) {addr : UInt64} (real : pageBase addr ≠ 0) :
    retainGetGen s.tab as addr = lastPut (as, pageBase addr) s.log := by
  unfold retainGetGen
  cases before : s.tab with
  | none => exact (kept.nothing before _ real).symm
  | some tab =>
    rw [← (kept.holds tab before).exact_ (as, pageBase addr) real]
    exact retainFind_get real

/-! The contract. -/

def Event.decides (key : UInt64 × UInt64) : Event → Prop
  | .put as page _ _ stored => key = (as, page) ∧ stored = true
  | .forget as start end_ => covers as start end_ key

theorem lastPut_eq_some :
    lastPut key log = some (bytes, gen) ↔ ∃ later earlier,
      log = later ++ .put key.1 key.2 bytes gen true :: earlier ∧
      ∀ event ∈ later, ¬ event.decides key := by
  induction log with
  | nil => simp [lastPut]
  | cons event log ih =>
    have passes : ¬ event.decides key →
        lastPut key (event :: log) = lastPut key log := by
      intro idle
      cases event with
      | put as page bytes gen stored | forget as start end_ => exact if_neg idle
    by_cases decided : event.decides key
    · constructor
      · intro last
        cases event with
        | put as page other stamp stored =>
          obtain ⟨rfl, rfl⟩ := decided
          rw [lastPut, if_pos ⟨rfl, rfl⟩] at last
          cases last
          exact ⟨[], log, rfl, fun event member => absurd member List.not_mem_nil⟩
        | forget as start end_ =>
          have covered : covers as start end_ key := decided
          rw [lastPut, if_pos covered] at last
          cases last
      · rintro ⟨later, earlier, split, idle⟩
        cases later with
        | nil =>
          cases split
          exact if_pos ⟨rfl, rfl⟩
        | cons first later =>
          cases split
          exact absurd decided (idle _ List.mem_cons_self)
    · rw [passes decided, ih]
      constructor
      · rintro ⟨later, earlier, rfl, idle⟩
        refine ⟨event :: later, earlier, rfl, fun other member => ?_⟩
        rcases List.mem_cons.mp member with rfl | old
        · exact decided
        · exact idle other old
      · rintro ⟨later, earlier, split, idle⟩
        cases later with
        | nil =>
          cases split
          exact absurd ⟨rfl, rfl⟩ decided
        | cons first later =>
          cases split
          refine ⟨later, earlier, rfl, fun other member => ?_⟩
          exact idle other (List.mem_cons_of_mem _ member)

def Label.concerns (key : UInt64 × UInt64) : Label → Prop
  | .put as addr _ _ _ => key = (as, pageBase addr)
  | .get _ _ => False
  | .forget as start end_ => covers as start end_ key

/-- What the table of retained pages answers. -/
structure Transmitted (s : Session) : Prop where
  /-- A question hits exactly when a put of the key found a slot and neither another one nor a
  forgotten range that covers the page came later, and answers that put. -/
  hits : ∀ as addr, pageBase addr ≠ 0 → ∀ bytes gen,
    (retainGetGen s.tab as addr = some (bytes, gen) ↔ ∃ later earlier,
      s.log = later ++ .put as (pageBase addr) bytes gen true :: earlier ∧
      ∀ event ∈ later, ¬ event.decides (as, pageBase addr))
  /-- A call changes no answer about a page that it does not concern. -/
  others : ∀ l s', Session.Step s l s' → ∀ as addr, pageBase addr ≠ 0 →
    ¬ l.concerns (as, pageBase addr) → retainGetGen s'.tab as addr = retainGetGen s.tab as addr
  /-- A put is refused only if the table cannot be allocated, or every entry holds the bytes of
  another key. -/
  refused : ∀ as addr bytes gen allocated, pageBase addr ≠ 0 →
    (retainPut s.tab as addr bytes gen allocated).2 = false →
    (s.tab = none ∧ allocated = false) ∨ ∃ tab, s.tab = some tab ∧
      ∀ pos < retainSlots, (tab pos).live = true ∧
        ((tab pos).as, (tab pos).page) ≠ (as, pageBase addr)

theorem lastPut_unconcerned (step : Session.Step s l s')
    (other : ¬ l.concerns key) : lastPut key s'.log = lastPut key s.log := by
  unfold Session.Step Computed at step
  cases l with
  | put as addr bytes gen allocated =>
    obtain ⟨-, same⟩ := Option.ite_none_left_eq_some.mp step
    cases same
    exact if_neg fun both => other both.1
  | get as addr =>
    obtain ⟨-, same⟩ := Option.ite_none_left_eq_some.mp step
    cases same
    rfl
  | forget as start end_ =>
    cases step
    exact if_neg other

/-- In every session what is retained of a page is the copy transmitted last. -/
theorem retained_last_transmitted {s : Session} (run : Reach Session.Step Session.start s) :
    Transmitted s := by
  have kept := Session.Kept.reached run
  refine ⟨?_, ?_, ?_⟩
  · intro as addr real bytes gen
    rw [kept.get as real, lastPut_eq_some]
  · intro l s' step as addr real other
    rw [kept.get as real, (kept.step step).get as real, lastPut_unconcerned step other]
  · intro as addr bytes gen allocated real refused
    obtain ⟨tab', stored, ran, -, why⟩ := kept.put real as bytes gen allocated
    rw [ran] at refused
    refine (why refused).imp_right ?_
    rintro ⟨tab, before, full⟩
    refine ⟨tab, before, fun pos inside => ⟨(full pos inside).1, fun same => ?_⟩⟩
    refine (full pos inside).2 ?_
    rw [← same]
    exact if_neg ((kept.holds tab before).named pos inside (full pos inside).1)

/-- A page is transmitted twice, and another one forgotten. -/
theorem retained_last_transmitted_twice : ∃ s, Reach Session.Step Session.start s ∧
    Transmitted s ∧ retainGetGen s.tab 3 4096 = some (fun _ => 8, 2) ∧
    retainGetGen s.tab 3 8192 = none := by
  have ran : (exec Session.next Session.start
      [.put 3 4096 (fun _ => 7) 1 true, .put 3 8192 (fun _ => 9) 1 true,
        .put 3 4100 (fun _ => 8) 2 true, .forget 3 8192 12288]).isSome = true := by decide +kernel
  have run := exec_get_reach ran
  refine ⟨_, run, retained_last_transmitted run, ?_, ?_⟩
  · rw [(Session.Kept.reached run).get 3 (by decide)]
    rfl
  · rw [(Session.Kept.reached run).get 3 (by decide)]
    rfl

end Vmctx.Retained
