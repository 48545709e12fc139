import Vmctx.PageTransfer.Table
/-!
# The ownership channel

A segment of entries, one for each page of an address space that was ever serviced. An entry says
where the page's token is and which way it is moving; at most one move of an entry is in flight. A
move begins when the entry is idle and ends by landing or by being given up, which both bump the
generation that waiters watch. Entries are found by linear probing from a hash of the page number
and are never removed, and a full segment has no entry for a new page. The calls here are the
sections of the segment's lock.
-/

namespace Vmctx.Ownership

open PageTransfer Table Function

/-- Where the token is, `enum own_site`. -/
inductive OwnSite
  | none_
  | home
  | remote
  deriving DecidableEq, Repr

/-- Which way a token is moving, `enum own_transit`. -/
inductive OwnTransit
  | none_
  | toHome
  | toRemote
  deriving DecidableEq, Repr

/-- `struct own_ent`. -/
structure OwnEnt where
  as : UInt64
  page : UInt64
  site : OwnSite
  transit : OwnTransit
  gen : UInt32
  deriving DecidableEq

def OwnEnt.zero : OwnEnt := ⟨0, 0, .none_, .none_, 0⟩

abbrev OwnTable := Nat → OwnEnt

def OwnTable.start : OwnTable := fun _ => .zero

def ownSlots : Nat := 2 ^ 18

def ownHash (as page : UInt64) : UInt64 :=
  as * (1099511628211 : UInt64) + (page >>> 12) * (14695981039346656037 : UInt64)

def owning : Scheme OwnEnt PgKey where
  size := ownSlots
  next pos := (pos + 1) % ownSlots
  home key := (ownHash key.as key.page).toNat % ownSlots
  key e := if e.as = 0 then none else some ⟨e.as, e.page⟩
  vacant e := e.as == 0

def OwnTable.tracked (t : OwnTable) (key : PgKey) : Option OwnEnt := owning.lookup t key

/-- `own_slot`. There is none when the segment is full, or when it is missing and not asked for. -/
def ownSlot (t : OwnTable) (as page : UInt64) (create : Bool) : OwnTable × Option Nat :=
  match owning.find t (PgKey.of as page) with
  | none => (t, none)
  | some pos =>
    if (t pos).as ≠ 0 then (t, some pos)
    else if create then (update t pos ⟨as, pageBase page, .none_, .none_, 0⟩, some pos)
    else (t, none)

/-- What `own_begin` returns. -/
inductive Begun
  | claimed
  | busy (gen : UInt32)
  | full
  deriving DecidableEq

/-- `own_begin`. -/
def ownBegin (t : OwnTable) (as page : UInt64) (to_ : OwnTransit) : OwnTable × Begun :=
  match ownSlot t as page true with
  | (t, none) => (t, .full)
  | (t, some pos) =>
    if (t pos).transit ≠ .none_ then (t, .busy (t pos).gen)
    else (update t pos { t pos with transit := to_ }, .claimed)

/-- `own_land`. -/
def ownLand (t : OwnTable) (as page : UInt64) (site : OwnSite) : OwnTable :=
  match ownSlot t as page true with
  | (t, none) => t
  | (t, some pos) =>
    update t pos
      { t pos with site := site, transit := .none_, gen := (t pos).gen + 1 }

/-- `own_abort`. -/
def ownAbort (t : OwnTable) (as page : UInt64) : OwnTable :=
  match ownSlot t as page true with
  | (t, none) => t
  | (t, some pos) =>
    if (t pos).transit ≠ .none_ then
      update t pos { t pos with transit := .none_, gen := (t pos).gen + 1 }
    else t

/-- Whether `own_wait` returns because of a landing: the generation moved on, or there is no
entry. -/
def ownLanded (t : OwnTable) (as page : UInt64) (gen : UInt32) : Bool :=
  match ownSlot t as page false with
  | (_, none) => true
  | (t, some pos) => (t pos).gen != gen

theorem owning_lawful : owning.Lawful := by
  have positive : 0 < ownSlots := Nat.two_pow_pos 18
  constructor
  · intro e vacant
    have free : e.as = 0 := by simpa [owning] using vacant
    simp [owning, free]
  · intro key
    exact Nat.mod_lt _ positive
  · intro pos _
    exact Nat.mod_lt _ positive
  · intro pos inside target targetInside
    exact cyclic_reaches ownSlots pos target inside targetInside

variable {e : OwnEnt} {as : UInt64} {t : OwnTable}

theorem owning_key (used : e.as ≠ 0) : owning.key e = some ⟨e.as, e.page⟩ :=
  if_neg used

theorem start_sound : owning.Sound OwnTable.start where
  law := owning_lawful
  chained _ _ _ held := by cases held
  unique _ _ _ _ _ held := by cases held

theorem start_tracked (key : PgKey) : OwnTable.start.tracked key = none := by
  refine Option.eq_none_iff_forall_ne_some.mpr fun e tracked => ?_
  obtain ⟨pos, -, rfl, held⟩ := start_sound.lookup_eq_some.mp tracked
  cases held

/-- What `own_slot` finds or makes: the segment is full, or there is an entry of the key at the
position, which was there before or is new and idle, and nothing else changes. -/
theorem ownSlot_spec (sound : owning.Sound t) (page : UInt64) (used : as ≠ 0) :
    ownSlot t as page true = (t, none) ∨
      ∃ t' pos, ownSlot t as page true = (t', some pos) ∧ owning.Sound t' ∧ pos < owning.size ∧
        owning.key (t' pos) = some (PgKey.of as page) ∧
        t'.tracked = update t.tracked (PgKey.of as page) (some (t' pos)) ∧
        (t.tracked (PgKey.of as page) = some (t' pos) ∨
          (t.tracked (PgKey.of as page) = none ∧ (t' pos).transit = .none_)) := by
  unfold ownSlot
  cases found : owning.find t (PgKey.of as page) with
  | none => exact .inl rfl
  | some pos =>
    right
    have inside := sound.law.find_inside found
    by_cases free : (t pos).as = 0
    · -- The search ended at a free slot, so the key has no entry.
      have missing : owning.key (t pos) ≠ some (PgKey.of as page) := by
        simp [owning, free]
      obtain ⟨placed, fresh⟩ := sound.find_missing found missing
      have owns : owning.key (⟨as, pageBase page, .none_, .none_, 0⟩ : OwnEnt) =
          some (PgKey.of as page) := owning_key used
      have absent : t.tracked (PgKey.of as page) = none := by
        refine Option.eq_none_iff_forall_ne_some.mpr fun e tracked => ?_
        exact fresh e (sound.lookup_eq_some.mp tracked)
      refine ⟨_, pos, by simp only [free, ne_eq, not_true, if_false, if_true],
        sound.fill fresh placed owns, inside, ?_, ?_, .inr ⟨absent, ?_⟩⟩
      · rw [update_self]
        exact owns
      · rw [update_self]
        exact sound.lookup_fill fresh placed owns
      · rw [update_self]
    · have held : owning.key (t pos) = some (PgKey.of as page) := by
        obtain ⟨k, -, landed, stop, -⟩ := walk_eq_some.mp found
        have busy : owning.vacant (t pos) = false := by simpa [owning] using free
        simpa [busy] using stop
      have tracked : t.tracked (PgKey.of as page) = some (t pos) := sound.lookup_held inside held
      refine ⟨t, pos, by simp only [ne_eq, free, not_false_eq_true, if_true], sound, inside, held,
        ?_, .inl tracked⟩
      rw [← tracked, update_eq_self]

theorem rewrite_tracked {pos : Nat} {key : PgKey} (sound : owning.Sound t)
    (inside : pos < owning.size) (held : owning.key (t pos) = some key)
    (same : e.as = (t pos).as ∧ e.page = (t pos).page) :
    owning.Sound (update t pos e) ∧
      OwnTable.tracked (update t pos e) = update t.tracked key (some e) := by
  have owns : owning.key e = some key := by
    rw [← held]
    simp only [owning, same.1, same.2]
  exact ⟨sound.replace held owns, sound.lookup_replace inside held owns⟩

/-- `own_begin` claims an idle entry of the key, says that a move is in flight, or finds the segment
full; nothing else changes. -/
theorem ownBegin_spec (sound : owning.Sound t) (page : UInt64) (used : as ≠ 0) {to_ : OwnTransit}
    (moving : to_ ≠ .none_) :
    owning.Sound (ownBegin t as page to_).1 ∧
    match (ownBegin t as page to_).2 with
    | .claimed => (∀ e, t.tracked (PgKey.of as page) = some e → e.transit = .none_) ∧
      ∃ e, e.transit ≠ .none_ ∧ (ownBegin t as page to_).1.tracked =
        update t.tracked (PgKey.of as page) (some e)
    | .busy gen => (ownBegin t as page to_).1.tracked = t.tracked ∧
      ∃ e, t.tracked (PgKey.of as page) = some e ∧ e.gen = gen
    | .full => (ownBegin t as page to_).1.tracked = t.tracked := by
  unfold ownBegin
  obtain full | ⟨t', pos, made, sound', inside, held, tracked, was⟩ := ownSlot_spec sound page used
  · simp only [full]
    exact ⟨sound, trivial⟩
  simp only [made]
  split
  · next busy =>
    -- An entry with a move in flight was there before.
    obtain old | ⟨-, idle⟩ := was
    · refine ⟨sound', ?_, t' pos, old, rfl⟩
      rw [tracked, ← old, update_eq_self]
    · exact absurd idle busy
  · next idle =>
    rw [ne_eq, not_not] at idle
    obtain ⟨kept, rewritten⟩ := rewrite_tracked sound' inside held
      (⟨rfl, rfl⟩ : ({ t' pos with transit := to_ } : OwnEnt).as = _ ∧ _)
    refine ⟨kept, ?_, { t' pos with transit := to_ }, moving, ?_⟩
    · intro e entry
      obtain old | ⟨absent, -⟩ := was
      · rw [entry, Option.some.injEq] at old
        rw [old]
        exact idle
      · rw [absent] at entry
        cases entry
    · rw [rewritten, tracked, update_idem]

theorem ended_spec (sound : owning.Sound t) (page : UInt64) (used : as ≠ 0)
    (entry : t.tracked (PgKey.of as page) = some e) (moving : e.transit ≠ .none_) (present : Bool) :
    let t' := if present then ownLand t as page .remote else ownAbort t as page
    owning.Sound t' ∧ ∃ e', e'.transit = .none_ ∧
      t'.tracked = update t.tracked (PgKey.of as page) (some e') := by
  obtain full | ⟨t', pos, made, sound', inside, held, tracked, was⟩ := ownSlot_spec sound page used
  · -- A search for an entry that is there ends.
    obtain ⟨pos, inside, rfl, held⟩ := sound.lookup_eq_some.mp entry
    have found := sound.find_held inside held
    have busy : (t pos).as ≠ 0 := by
      intro free
      simp [owning, free] at held
    simp [ownSlot, found, busy] at full
  have same : t' pos = e := by
    obtain old | ⟨absent, -⟩ := was
    · rw [entry, Option.some.injEq] at old
      exact old.symm
    · rw [absent] at entry
      cases entry
  cases present with
  | true =>
    simp only [if_true, ownLand, made]
    obtain ⟨kept, rewritten⟩ := rewrite_tracked sound' inside held
      (⟨rfl, rfl⟩ : ({ t' pos with
        site := .remote, transit := .none_, gen := (t' pos).gen + 1 } : OwnEnt).as = _ ∧ _)
    exact ⟨kept, _, rfl, by rw [rewritten, tracked, update_idem]⟩
  | false =>
    simp only [Bool.false_eq_true, if_false, ownAbort, made, same, ne_eq, moving,
      not_false_eq_true, if_true]
    rw [← same]
    obtain ⟨kept, rewritten⟩ := rewrite_tracked sound' inside held
      (⟨rfl, rfl⟩ : ({ t' pos with
        transit := .none_, gen := (t' pos).gen + 1 } : OwnEnt).as = _ ∧ _)
    exact ⟨kept, _, rfl, by rw [rewritten, tracked, update_idem]⟩

end Vmctx.Ownership
