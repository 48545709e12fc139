import Vmctx.PageTransfer.Table
import Vmctx.System.Episodes
import Vmctx.System.Run
/-!
# Exclusion of page transfers

`pg_try_claim` and `pg_finish` run under one mutex, so a process is a sequence of calls on one
table. A call may pass any claim struct whatsoever: a copy, a stale one, or one never issued.
`World` adds the histories of the episodes issued and completed. Each call refines a step of the
numbered locks of `System.Episodes`, and exclusion follows from there.
-/

open Vmctx.Table Vmctx.System

namespace Vmctx.PageTransfer

open Function

def PgSt.stable (st : PgSt) : Bool := !pgTransient st.code

def claimSlot (t : PgTable) (pos : Nat) (as page : UInt64) (mine : PgSt) :
    Except Halt (PgTable × Except Errno (PgSt × PgClaim)) :=
  let s := t.tab pos
  if pgTransient s.st.code then .ok (t, .error .EBUSY)
  else if s.episode = UInt64.ofNat (2 ^ 64 - 1) then .error .aborted
  else
    let taken := { s with episode := s.episode + 1, st := mine }
    .ok ({ t with tab := update t.tab pos taken },
      .ok (s.st, ⟨as, page, s.episode + 1, s.st⟩))

/-- Claim a page for a hand-off. The claim written back names the new episode. -/
def pgTryClaim (t : PgTable) (as page : UInt64) (mine : Int) (claim : Option PgClaim) :
    Except Halt (PgTable × Except Errno (PgSt × PgClaim)) :=
  match claim, PgSt.ofCode? mine with
  | none, _ => .ok (t, .error .EINVAL)
  -- A value above `PST_REQUESTING`, or one below zero, names no state.
  | _, none => .ok (t, .error .EINVAL)
  | some claim, some mine =>
    if pgTransient mine.code = false then .ok (t, .error .EINVAL)
    else if claim.episode ≠ 0 then .ok (t, .error .EALREADY)
    else do
      let page := pageBase page
      let (t, found) ← pgSlotFind t as page true
      match found with
      | none => .error .faulted
      | some pos => claimSlot t pos as page mine

/-- `pg_finish`. -/
def pgFinish (t : PgTable) (claim : Option PgClaim) (st : Int) :
    Except Halt (PgTable × Except Errno PgClaim) :=
  match claim, PgSt.ofCode? st with
  | none, _ => .ok (t, .error .EINVAL)
  -- A value below zero, or one past the last state and so transient, names no state.
  | _, none => .ok (t, .error .EINVAL)
  | some claim, some st =>
    if claim.episode = 0 ∨ pgTransient st.code then .ok (t, .error .EINVAL)
    else do
      let (t, found) ← pgSlotFind t claim.as claim.page false
      match found with
      | none => return (t, .error .ESTALE)
      | some pos =>
        let s := t.tab pos
        if pgTransient s.st.code = false ∨ s.episode ≠ claim.episode then
          return (t, .error .ESTALE)
        else
          return ({ t with tab := update t.tab pos { s with st := st } },
            .ok { claim with episode := 0 })

inductive Call
  | tryClaim (as page : UInt64) (mine : Int) (claim : Option PgClaim)
  | finish (claim : Option PgClaim) (st : Int)

inductive Reply
  | claimed (prior : PgSt) (claim : PgClaim)
  | finished (claim : PgClaim)
  | failed (errno : Errno)
  deriving DecidableEq

/-- The table with the history of the episodes it issued and completed, latest first. -/
structure World where
  table : PgTable
  issued : List (PgKey × Nat)
  finished : List (PgKey × Nat)

def World.start : World := ⟨.start, [], []⟩

def World.call (w : World) : Call → Except Halt (World × Reply)
  | .tryClaim as page mine claim => do
    let (table, result) ← pgTryClaim w.table as page mine claim
    match result with
    | .error errno => return ({ w with table }, .failed errno)
    | .ok (prior, claim) =>
      return ({ w with table, issued := (⟨claim.as, claim.page⟩, claim.episode.toNat) :: w.issued },
        .claimed prior claim)
  | .finish claim st => do
    let (table, result) ← pgFinish w.table claim st
    match claim, result with
    | some before, .ok after =>
      return ({ w with
          table
          finished := (PgKey.of before.as before.page, before.episode.toNat) :: w.finished },
        .finished after)
    | none, .ok after => return ({ w with table }, .finished after)
    | _, .error errno => return ({ w with table }, .failed errno)

def World.next (w : World) (call : Call) : Option World :=
  match w.call call with
  | .ok (w', _) => some w'
  | .error _ => none

abbrev World.Step : World → Call → World → Prop := Computed World.next

variable {call : Call} {w w' : World} {key : PgKey} {slot : PgSlot} {mine st : PgSt}
  {t t' : PgTable} {reply : Reply}

theorem step_returned (step : World.Step w call w') : ∃ reply, w.call call = .ok (w', reply) := by
  change w.next call = some w' at step
  unfold World.next at step
  split at step
  · next after reply returned =>
    cases Option.some.inj step
    exact ⟨reply, returned⟩
  · cases step

def World.Outstanding (w : World) (key : PgKey) (episode : Nat) : Prop :=
  (key, episode) ∈ w.issued ∧ (key, episode) ∉ w.finished

instance (w : World) (key : PgKey) (episode : Nat) : Decidable (w.Outstanding key episode) :=
  inferInstanceAs (Decidable (_ ∧ _))

def Call.errnos : Call → List Errno
  | .tryClaim .. => [.EINVAL, .EALREADY, .EBUSY]
  | .finish .. => [.EINVAL, .ESTALE]

def slotOwner : Option PgSlot → Option Nat
  | some slot => if pgTransient slot.st.code then some slot.episode.toNat else none
  | none => none

def slotLast : Option PgSlot → Nat
  | some slot => slot.episode.toNat
  | none => 0

def World.locks (w : World) : Episodes PgKey where
  owner key := slotOwner (w.table.tracked key)
  last key := slotLast (w.table.tracked key)
  issued := w.issued
  finished := w.finished

theorem stable_iff (st : PgSt) :
    pgTransient st.code = false ↔ st = .invalid ∨ st = .shared ∨ st = .owned := by
  cases st <;> decide

/-- The slot a claim works on: the tracked one, or a fresh one when the key is not tracked. -/
def slotOrFresh (key : PgKey) : Option PgSlot → PgSlot
  | some slot => slot
  | none => PgSlot.fresh key

inductive Claimed (t : PgTable) (as page : UInt64) :
    PgTable → Except Errno (PgSt × PgClaim) → Prop
  | failed {t' : PgTable} {errno : Errno}
      (named : errno = .EINVAL ∨ errno = .EALREADY ∨ errno = .EBUSY) (wf : t'.WellFormed)
      (same : t'.tracked = t.tracked) : Claimed t as page t' (.error errno)
  | taken {t' : PgTable} {slot : PgSlot} {mine : PgSt}
      (was : slot = slotOrFresh (PgKey.of as page) (t.tracked (PgKey.of as page)))
      (stable : pgTransient slot.st.code = false) (transient : pgTransient mine.code = true)
      (counted : (slot.episode + 1).toNat = slot.episode.toNat + 1) (wf : t'.WellFormed)
      (tracked : t'.tracked = update t.tracked (PgKey.of as page)
        (some { slot with episode := slot.episode + 1, st := mine })) :
      Claimed t as page t' (.ok (slot.st, ⟨as, pageBase page, slot.episode + 1, slot.st⟩))

theorem toNat_succ {word : UInt64} (below : word ≠ UInt64.ofNat (2 ^ 64 - 1)) :
    (word + 1).toNat = word.toNat + 1 := by
  have bound : word.toNat < 2 ^ 64 := word.toNat_lt
  have apart : word.toNat ≠ 2 ^ 64 - 1 := by
    intro same
    exact below (by rw [← same, UInt64.ofNat_toNat])
  rw [UInt64.toNat_add]
  change (word.toNat + 1) % 2 ^ 64 = _
  omega

theorem key_restate (episode : UInt64) (st : PgSt) (held : tracking.key slot = some key) :
    tracking.key { slot with episode := episode, st := st } = some key := held

private theorem claimSlot_spec {as page : UInt64} {pos : Nat}
    (created : Created t (PgKey.of as page) t' pos) (transient : pgTransient mine.code = true) :
    claimSlot t' pos as (pageBase page) mine = .error .aborted ∨
      ∃ t'' result, claimSlot t' pos as (pageBase page) mine = .ok (t'', result) ∧
        Claimed t as page t'' result := by
  by_cases busy : pgTransient (t'.tab pos).st.code = true
  · -- A fresh slot is stable, so the busy slot was tracked and nothing was created.
    have before : t.tracked (PgKey.of as page) = some (t'.tab pos) := by
      rcases created.origin with before | ⟨-, fresh⟩
      · exact before
      · rw [fresh] at busy
        exact absurd busy (show ¬ pgTransient PgSt.invalid.code = true by decide)
    have same : t'.tracked = t.tracked := by
      rw [created.tracked, ← before, update_eq_self]
    exact .inr ⟨t', .error .EBUSY, if_pos busy, .failed (.inr (.inr rfl)) created.wf same⟩
  by_cases exhausted : (t'.tab pos).episode = UInt64.ofNat (2 ^ 64 - 1)
  · exact .inl (by simp only [claimSlot, if_neg busy, if_pos exhausted])
  have held := key_restate ((t'.tab pos).episode + 1) mine created.held
  have rewritten := rewrite_spec created.wf created.inside created.held held
  have was : t'.tab pos = slotOrFresh (PgKey.of as page) (t.tracked (PgKey.of as page)) := by
    rcases created.origin with before | ⟨before, fresh⟩
    · rw [before]
      rfl
    · rw [before]
      exact fresh
  have stable : pgTransient (t'.tab pos).st.code = false := by simpa using busy
  have tracked := rewritten.2
  rw [created.tracked, update_idem] at tracked
  refine .inr ⟨_, _, ?_,
    .taken was stable transient (toNat_succ exhausted) rewritten.1 tracked⟩
  simp only [claimSlot, if_neg busy, if_neg exhausted]

/-- A claim of a well-formed table fails without effect, takes the next episode of the key, or
aborts. -/
theorem pgTryClaim_spec (wf : t.WellFormed) (as page : UInt64) (mine : Int)
    (claim : Option PgClaim) :
    pgTryClaim t as page mine claim = .error .aborted ∨
      ∃ t' result, pgTryClaim t as page mine claim = .ok (t', result) ∧
        Claimed t as page t' result := by
  cases claim with
  | none => exact .inr ⟨t, _, rfl, .failed (.inl rfl) wf rfl⟩
  | some claim =>
    cases names : PgSt.ofCode? mine with
    | none =>
      exact .inr ⟨t, _, by simp only [pgTryClaim, names], .failed (.inl rfl) wf rfl⟩
    | some st =>
      by_cases transient : pgTransient st.code = true
      · by_cases clear : claim.episode = 0
        · have unfolded : pgTryClaim t as page mine (some claim) =
              (pgSlotFind t as (pageBase page) true).bind fun made =>
                match made.2 with
                | none => .error .faulted
                | some pos => claimSlot made.1 pos as (pageBase page) st := by
            simp only [pgTryClaim, names, transient, clear, Bool.true_eq_false, if_false, ne_eq,
              not_true_eq_false]
            rfl
          obtain failed | ⟨t', pos, made, created⟩ := pgSlotFind_create wf as (pageBase page)
          · exact .inl (by rw [unfolded, failed]; rfl)
          · rw [PgKey.of_base] at created
            rw [unfolded, made]
            exact claimSlot_spec created transient
        · refine .inr ⟨t, .error .EALREADY, ?_, .failed (.inr (.inl rfl)) wf rfl⟩
          simp [pgTryClaim, names, transient, clear]
      · refine .inr ⟨t, .error .EINVAL, ?_, .failed (.inl rfl) wf rfl⟩
        simp [pgTryClaim, names, transient]

def Completes (t : PgTable) (claim : Option PgClaim) (code : Int) (st : PgSt) (c : PgClaim)
    (slot : PgSlot) : Prop :=
  claim = some c ∧ PgSt.ofCode? code = some st ∧ pgTransient st.code = false ∧ c.episode ≠ 0 ∧
    t.tracked (PgKey.of c.as c.page) = some slot ∧ pgTransient slot.st.code = true ∧
    slot.episode = c.episode

inductive Finished (t : PgTable) (claim : Option PgClaim) (code : Int) :
    PgTable → Except Errno PgClaim → Prop
  | failed {errno : Errno} (named : errno = .EINVAL ∨ errno = .ESTALE)
      (refused : ∀ st c slot, ¬ Completes t claim code st c slot) :
      Finished t claim code t (.error errno)
  | done {t' : PgTable} {st : PgSt} {c : PgClaim} {slot : PgSlot}
      (completes : Completes t claim code st c slot) (wf : t'.WellFormed)
      (tracked : t'.tracked = update t.tracked (PgKey.of c.as c.page)
        (some { slot with st := st })) :
      Finished t claim code t' (.ok { c with episode := 0 })

private theorem finish_accepted (wf : t.WellFormed) {code : Int} {claim : PgClaim}
    (names : PgSt.ofCode? code = some st) (stable : pgTransient st.code = false)
    (issued : claim.episode ≠ 0) :
    ∃ t' result, pgFinish t (some claim) code = .ok (t', result) ∧
      Finished t (some claim) code t' result := by
  obtain ⟨pos, found, inside, held, tracked⟩ | ⟨found, untracked⟩ :=
    pgSlotFind_lookup wf claim.as claim.page
  · by_cases owned : pgTransient (t.tab pos).st.code = true ∧ (t.tab pos).episode = claim.episode
    · have restated := key_restate (t.tab pos).episode st held
      have rewritten := rewrite_spec wf inside held restated
      have completes : Completes t (some claim) code st claim (t.tab pos) :=
        ⟨rfl, names, stable, issued, tracked, owned⟩
      refine ⟨_, _, ?_, .done completes rewritten.1 rewritten.2⟩
      simp [pgFinish, names, stable, issued, found, owned, bind, Except.bind, pure, Except.pure]
    · have refused : ∀ st c slot, ¬ Completes t (some claim) code st c slot := by
        rintro _ c slot ⟨same, -, -, -, trackedSlot, inFlight, episode⟩
        cases Option.some.inj same
        rw [tracked, Option.some.injEq] at trackedSlot
        rw [← trackedSlot] at inFlight episode
        exact owned ⟨inFlight, episode⟩
      have stale : pgTransient (t.tab pos).st.code = false ∨
          (t.tab pos).episode ≠ claim.episode := by
        rw [Decidable.not_and_iff_or_not, Bool.not_eq_true] at owned
        exact owned
      refine ⟨t, .error .ESTALE, ?_, .failed (.inr rfl) refused⟩
      simp only [pgFinish, names, stable, issued, found, bind, Except.bind, Bool.false_eq_true,
        or_self, if_false, if_pos stale]
      rfl
  · have refused : ∀ st c slot, ¬ Completes t (some claim) code st c slot := by
      rintro _ c slot ⟨same, -, -, -, trackedSlot, -⟩
      cases Option.some.inj same
      rw [untracked] at trackedSlot
      cases trackedSlot
    refine ⟨t, .error .ESTALE, ?_, .failed (.inr rfl) refused⟩
    simp [pgFinish, names, stable, issued, found, bind, Except.bind, pure, Except.pure]

/-- A completion on a well-formed table returns, and ends exactly what its claim has in flight. -/
theorem pgFinish_spec (wf : t.WellFormed) (claim : Option PgClaim) (code : Int) :
    ∃ t' result, pgFinish t claim code = .ok (t', result) ∧ Finished t claim code t' result := by
  cases claim with
  | none =>
    have refused : ∀ st c slot, ¬ Completes t none code st c slot := by
      intro st c slot completes
      cases completes.1
    exact ⟨t, _, rfl, .failed (.inl rfl) refused⟩
  | some claim =>
    cases names : PgSt.ofCode? code with
    | none =>
      have refused : ∀ st c slot, ¬ Completes t (some claim) code st c slot := by
        intro st c slot completes
        rw [completes.2.1] at names
        cases names
      exact ⟨t, _, by simp only [pgFinish, names], .failed (.inl rfl) refused⟩
    | some st =>
      by_cases rejected : claim.episode = 0 ∨ pgTransient st.code = true
      · have refused : ∀ st' c slot, ¬ Completes t (some claim) code st' c slot := by
          rintro st' c slot ⟨same, named, stable, issued, -⟩
          cases Option.some.inj same
          rw [names, Option.some.injEq] at named
          rw [named, stable] at rejected
          exact rejected.elim issued (by decide)
        refine ⟨t, _, ?_, .failed (.inl rfl) refused⟩
        simp only [pgFinish, names, if_pos rejected]
      · rw [not_or, Bool.not_eq_true] at rejected
        exact finish_accepted wf names rejected.2 rejected.1

theorem claimed_locks (w : World) (was : slot = slotOrFresh key (w.table.tracked key))
    (transient : pgTransient mine.code = true)
    (counted : (slot.episode + 1).toNat = slot.episode.toNat + 1)
    (tracked : t'.tracked = update w.table.tracked key
      (some { slot with episode := slot.episode + 1, st := mine })) :
    World.locks ⟨t', (key, (slot.episode + 1).toNat) :: w.issued, w.finished⟩ =
      w.locks.claim key := by
  have last : w.locks.last key = slot.episode.toNat := by
    change slotLast (w.table.tracked key) = _
    rw [was]
    cases w.table.tracked key <;> rfl
  ext1
  · funext wanted
    simp only [World.locks, Episodes.claim, tracked]
    by_cases same : wanted = key
    · subst same
      simp only [update_self, slotOwner, transient, if_true, counted]
      rw [← last]
      rfl
    · simp only [update_of_ne same]
  · funext wanted
    simp only [World.locks, Episodes.claim, tracked]
    by_cases same : wanted = key
    · subst same
      simp only [update_self, slotLast, counted]
      rw [← last]
      rfl
    · simp only [update_of_ne same]
  · simp only [World.locks, Episodes.claim, counted]
    rw [← last]
    rfl
  · rfl

theorem finished_locks (w : World) (before : w.table.tracked key = some slot)
    (stable : pgTransient st.code = false)
    (tracked : t'.tracked = update w.table.tracked key (some { slot with st := st }))
    (episode : Nat) :
    World.locks ⟨t', w.issued, (key, episode) :: w.finished⟩ = w.locks.finish key episode := by
  ext1
  · funext wanted
    simp only [World.locks, Episodes.finish, tracked]
    by_cases same : wanted = key
    · subst same
      simp [update_self, slotOwner, stable]
    · simp only [update_of_ne same]
  · funext wanted
    simp only [World.locks, Episodes.finish, tracked]
    by_cases same : wanted = key
    · subst same
      simp only [update_self, before, slotLast]
    · simp only [update_of_ne same]
  · rfl
  · rfl

/-- What a call that returned did: it failed without effect, or it moved one lock. -/
inductive Called (w : World) : Call → World → Reply → Prop
  | claimFailed {as page : UInt64} {mine : Int} {claim : Option PgClaim} {t' : PgTable}
      {errno : Errno} (named : errno = .EINVAL ∨ errno = .EALREADY ∨ errno = .EBUSY)
      (wf : t'.WellFormed) (same : t'.tracked = w.table.tracked) :
      Called w (.tryClaim as page mine claim) { w with table := t' } (.failed errno)
  | claimed {as page : UInt64} {mine : Int} {claim : Option PgClaim} {t' : PgTable} {slot : PgSlot}
      {st : PgSt} (was : slot = slotOrFresh (PgKey.of as page) (w.table.tracked (PgKey.of as page)))
      (stable : pgTransient slot.st.code = false) (transient : pgTransient st.code = true)
      (counted : (slot.episode + 1).toNat = slot.episode.toNat + 1) (wf : t'.WellFormed)
      (tracked : t'.tracked = update w.table.tracked (PgKey.of as page)
        (some { slot with episode := slot.episode + 1, st := st })) :
      Called w (.tryClaim as page mine claim)
        ⟨t', (PgKey.of as page, (slot.episode + 1).toNat) :: w.issued, w.finished⟩
        (.claimed slot.st ⟨as, pageBase page, slot.episode + 1, slot.st⟩)
  | finishFailed {claim : Option PgClaim} {code : Int} {errno : Errno}
      (named : errno = .EINVAL ∨ errno = .ESTALE)
      (refused : ∀ st c slot, ¬ Completes w.table claim code st c slot) :
      Called w (.finish claim code) w (.failed errno)
  | finished {claim : Option PgClaim} {code : Int} {t' : PgTable} {st : PgSt} {c : PgClaim}
      {slot : PgSlot} (completes : Completes w.table claim code st c slot) (wf : t'.WellFormed)
      (tracked : t'.tracked = update w.table.tracked (PgKey.of c.as c.page)
        (some { slot with st := st })) :
      Called w (.finish claim code)
        ⟨t', w.issued, (PgKey.of c.as c.page, c.episode.toNat) :: w.finished⟩
        (.finished { c with episode := 0 })

theorem call_tryClaim (wf : w.table.WellFormed) (as page : UInt64) (mine : Int)
    (claim : Option PgClaim) :
    w.call (.tryClaim as page mine claim) = .error .aborted ∨
      ∃ w' reply, w.call (.tryClaim as page mine claim) = .ok (w', reply) ∧
        Called w (.tryClaim as page mine claim) w' reply := by
  obtain aborted | ⟨t', result, returned, claimed⟩ := pgTryClaim_spec wf as page mine claim
  · left
    simp only [World.call, aborted]
    rfl
  · right
    cases claimed with
    | failed named wf' same =>
      refine ⟨_, _, ?_, .claimFailed named wf' same⟩
      simp only [World.call, returned]
      rfl
    | taken was stable transient counted wf' tracked =>
      refine ⟨_, _, ?_, .claimed was stable transient counted wf' tracked⟩
      simp only [World.call, returned]
      rfl

theorem call_finish (wf : w.table.WellFormed) (claim : Option PgClaim) (code : Int) :
    ∃ w' reply, w.call (.finish claim code) = .ok (w', reply) ∧
      Called w (.finish claim code) w' reply := by
  obtain ⟨t', result, returned, ended⟩ := pgFinish_spec wf claim code
  cases ended with
  | failed named refused =>
    refine ⟨w, _, ?_, .finishFailed named refused⟩
    simp only [World.call, returned]
    cases claim <;> rfl
  | done completes wf' tracked =>
    refine ⟨_, _, ?_, .finished completes wf' tracked⟩
    cases completes.1
    simp only [World.call, returned]
    rfl

theorem call_cases (wf : w.table.WellFormed) (returned : w.call call = .ok (w', reply)) :
    Called w call w' reply := by
  cases call with
  | tryClaim as page mine claim =>
    obtain aborted | ⟨v, result, computed, called⟩ := call_tryClaim wf as page mine claim
    · rw [aborted] at returned
      cases returned
    · rw [computed] at returned
      cases returned
      exact called
  | finish claim code =>
    obtain ⟨v, result, computed, called⟩ := call_finish wf claim code
    rw [computed] at returned
    cases returned
    exact called

structure World.Good (w : World) : Prop where
  wf : w.table.WellFormed
  consistent : w.locks.Consistent

theorem start_good : World.start.Good := by
  have locks : World.start.locks = Episodes.start := by
    ext1
    · funext key
      change slotOwner (PgTable.start.tracked key) = none
      rw [tracked_zero rfl]
      rfl
    · funext key
      change slotLast (PgTable.start.tracked key) = 0
      rw [tracked_zero rfl]
      rfl
    · rfl
    · rfl
  exact ⟨start_wellFormed, by rw [locks]; exact Episodes.start_consistent⟩

theorem Called.refines (called : Called w call w' reply) : Episodes.Step w.locks w'.locks := by
  cases called with
  | claimFailed named wf same =>
    rename_i t' errno
    have locks : World.locks { w with table := t' } = w.locks := by
      simp only [World.locks, same]
    rw [locks]
    exact .idle w.locks
  | claimed was stable transient counted wf tracked =>
    rename_i as page mine claim t' slot st
    rw [claimed_locks w was transient counted tracked]
    apply Episodes.Step.claim
    change slotOwner (w.table.tracked (PgKey.of as page)) = none
    rw [was] at stable
    cases before : w.table.tracked (PgKey.of as page) with
    | none => rfl
    | some slot =>
      rw [before] at stable
      simp only [slotOrFresh] at stable
      simp [slotOwner, stable]
  | finishFailed => exact .idle w.locks
  | finished completes wf tracked =>
    obtain ⟨-, -, stable, -, before, inFlight, episode⟩ := completes
    rw [finished_locks w before stable tracked]
    apply Episodes.Step.finish
    change slotOwner (w.table.tracked _) = _
    rw [before, ← episode]
    simp [slotOwner, inFlight]

theorem Called.wellFormed (called : Called w call w' reply) (before : w.table.WellFormed) :
    w'.table.WellFormed := by
  cases called with
  | claimFailed named wf same | claimed was stable transient counted wf tracked
  | finished completes wf tracked => exact wf
  | finishFailed => exact before

theorem World.Good.step (good : w.Good) (step : w.Step call w') : w'.Good := by
  obtain ⟨reply, returned⟩ := step_returned step
  have called := call_cases good.wf returned
  exact ⟨called.wellFormed good.wf, good.consistent.step called.refines⟩

theorem reach_good (run : Reach World.Step World.start w) : w.Good :=
  run.invariant (fun _ _ _ good step => good.step step) start_good

theorem World.Good.outstanding_iff (good : w.Good) (key : PgKey) (episode : Nat) :
    w.Outstanding key episode ↔ ∃ slot, w.table.tracked key = some slot ∧
      pgTransient slot.st.code = true ∧ slot.episode.toNat = episode := by
  have owner := good.consistent.outstanding key episode
  change slotOwner (w.table.tracked key) = some episode ↔ w.Outstanding key episode at owner
  rw [← owner]
  cases tracked : w.table.tracked key with
  | none => simp [slotOwner]
  | some slot =>
    cases transient : pgTransient slot.st.code <;> simp [slotOwner, transient]

/-- A completion may end something exactly when its claim names the outstanding episode of its key
and its state is stable. -/
theorem World.Good.completes_iff (good : w.Good) (claim : Option PgClaim) (code : Int) (st : PgSt)
    (c : PgClaim) :
    (∃ slot, Completes w.table claim code st c slot) ↔
      claim = some c ∧ PgSt.ofCode? code = some st ∧ (st = .invalid ∨ st = .shared ∨ st = .owned) ∧
        w.Outstanding (PgKey.of c.as c.page) c.episode.toNat := by
  rw [good.outstanding_iff, ← stable_iff]
  constructor
  · rintro ⟨slot, given, named, stable, -, tracked, inFlight, episode⟩
    exact ⟨given, named, stable, slot, tracked, inFlight, by rw [episode]⟩
  · rintro ⟨given, named, stable, slot, tracked, inFlight, episode⟩
    have outstanding : w.Outstanding (PgKey.of c.as c.page) c.episode.toNat :=
      (good.outstanding_iff _ _).mpr ⟨slot, tracked, inFlight, episode⟩
    have positive := ((good.consistent.numbered _ _).mp outstanding.1).1
    have issued : c.episode ≠ 0 := by
      intro zero
      rw [zero] at positive
      exact absurd positive (by decide)
    exact ⟨slot, given, named, stable, issued, tracked, inFlight, UInt64.toNat_inj.mp episode⟩

/-- A completion returns zero exactly when its state is stable and its claim names the outstanding
episode of its key, and it then changes the state of that slot only. -/
theorem World.Good.finish_exact (good : w.Good) (claim : Option PgClaim) (code : Int) :
    ∃ w' reply, w.call (.finish claim code) = .ok (w', reply) ∧
      ((∃ after, reply = .finished after) ↔
        ∃ c st, claim = some c ∧ PgSt.ofCode? code = some st ∧
          (st = .invalid ∨ st = .shared ∨ st = .owned) ∧
          w.Outstanding (PgKey.of c.as c.page) c.episode.toNat) ∧
      ∀ after, reply = .finished after → ∃ c st slot, claim = some c ∧
        PgSt.ofCode? code = some st ∧ after = { c with episode := 0 } ∧
        w.table.tracked (PgKey.of c.as c.page) = some slot ∧
        w'.table.tracked = update w.table.tracked (PgKey.of c.as c.page)
          (some { slot with st := st }) := by
  obtain ⟨w', reply, returned, called⟩ := call_finish good.wf claim code
  refine ⟨w', reply, returned, ?_⟩
  cases called with
  | finishFailed named refused =>
    refine ⟨⟨?_, ?_⟩, ?_⟩
    · rintro ⟨after, same⟩
      cases same
    · rintro ⟨c, st, names⟩
      obtain ⟨slot, completes⟩ := (good.completes_iff claim code st c).mpr names
      exact absurd completes (refused st c slot)
    · intro after same
      cases same
  | finished completes wf tracked =>
    rename_i t' st c slot
    have names := (good.completes_iff claim code st c).mp ⟨slot, completes⟩
    refine ⟨⟨fun _ => ⟨c, st, names⟩, fun _ => ⟨_, rfl⟩⟩, ?_⟩
    intro after same
    cases same
    exact ⟨c, st, slot, names.1, names.2.1, rfl, completes.2.2.2.2.1, tracked⟩

theorem World.Good.failed_frame {errno : Errno} (good : w.Good)
    (returned : w.call call = .ok (w', .failed errno)) :
    errno ∈ call.errnos ∧ w'.issued = w.issued ∧ w'.finished = w.finished ∧
      ∀ key slot, w.table.tracked key = some slot → w'.table.tracked key = some slot := by
  have called := call_cases good.wf returned
  cases called with
  | claimFailed named wf same =>
    refine ⟨by simpa [Call.errnos] using named, rfl, rfl, ?_⟩
    intro key slot tracked
    rw [← tracked, ← same]
  | finishFailed named refused =>
    exact ⟨by simpa [Call.errnos] using named, rfl, rfl, fun key slot tracked => tracked⟩

theorem other_call (good : w.Good) (ran : w.call call = .ok (w', reply)) :
    w'.Good ∧ (∀ entry, entry ∈ w.finished → entry ∈ w'.finished) ∧
    ∀ key episode, w.Outstanding key episode →
      (∀ c st, call = .finish (some c) st →
        ¬ (PgKey.of c.as c.page = key ∧ c.episode.toNat = episode)) →
      w'.Outstanding key episode := by
  have stepped : World.Step w call w' := by
    simp only [World.Step, System.Computed, World.next, ran]
  refine ⟨good.step stepped, ?_, ?_⟩
  · intro entry member
    cases call_cases good.wf ran with
    | claimFailed | claimed | finishFailed => exact member
    | finished => exact List.mem_cons_of_mem _ member
  · rintro key episode ⟨issued, unfinished⟩ others
    cases call_cases good.wf ran with
    | claimFailed | finishFailed => exact ⟨issued, unfinished⟩
    | claimed => exact ⟨List.mem_cons_of_mem _ issued, unfinished⟩
    | @finished claim code t' st c slot completes =>
      refine ⟨issued, ?_⟩
      rw [List.mem_cons]
      rintro (same | old)
      · rw [Prod.mk.injEq] at same
        have named := congrArg (Call.finish · code) completes.1
        exact others _ _ named ⟨same.1.symm, same.2.symm⟩
      · exact unfinished old

theorem World.Good.halts_aborted {halt : Halt} (good : w.Good)
    (halted : w.call call = .error halt) : halt = .aborted := by
  cases call with
  | tryClaim as page mine claim =>
    obtain aborted | ⟨w', reply, returned, -⟩ := call_tryClaim good.wf as page mine claim
    · rw [aborted] at halted
      cases halted
      rfl
    · rw [returned] at halted
      cases halted
  | finish claim code =>
    obtain ⟨w', reply, returned, -⟩ := call_finish good.wf claim code
    rw [returned] at halted
    cases halted

/-- Page transfers exclude each other in every run of calls: a key has at most one outstanding
episode, a completion succeeds exactly for it and changes only the state of its slot, failing calls
change no tracked slot, no episode of a key is issued twice, and no call hangs. -/
theorem page_transfer_exclusion {w : World} (run : Reach World.Step World.start w) :
    (∀ key first second, w.Outstanding key first → w.Outstanding key second → first = second) ∧
    (∀ claim code, ∃ w' reply, w.call (.finish claim code) = .ok (w', reply) ∧
      ((∃ after, reply = .finished after) ↔
        ∃ c st, claim = some c ∧ PgSt.ofCode? code = some st ∧
          (st = .invalid ∨ st = .shared ∨ st = .owned) ∧
          w.Outstanding (PgKey.of c.as c.page) c.episode.toNat) ∧
      ∀ after, reply = .finished after → ∃ c st slot, claim = some c ∧
        PgSt.ofCode? code = some st ∧ after = { c with episode := 0 } ∧
        w.table.tracked (PgKey.of c.as c.page) = some slot ∧
        w'.table.tracked = update w.table.tracked (PgKey.of c.as c.page)
          (some { slot with st := st })) ∧
    (∀ call w' errno, w.call call = .ok (w', .failed errno) →
      errno ∈ call.errnos ∧ w'.issued = w.issued ∧ w'.finished = w.finished ∧
        ∀ key slot, w.table.tracked key = some slot → w'.table.tracked key = some slot) ∧
    w.issued.Nodup ∧
    (∀ call halt, w.call call = .error halt → halt = .aborted) := by
  have good := reach_good run
  refine ⟨?_, good.finish_exact, ?_, good.consistent.once, ?_⟩
  · intro key first second one two
    exact good.consistent.exclusive one two
  · intro call w' errno returned
    exact good.failed_frame returned
  · intro call halt halted
    exact good.halts_aborted halted

/-- Two claims of one page, the second refused, a completion and a claim of the next episode. -/
def claimAgain : List Call :=
  [.tryClaim 1 0x5123 6 (some ⟨0, 0, 0, .invalid⟩), .tryClaim 1 0x5fff 4 (some ⟨0, 0, 0, .invalid⟩),
    .finish (some ⟨1, 0x5000, 1, .invalid⟩) 2, .tryClaim 1 0x5800 3 (some ⟨0, 0, 0, .invalid⟩)]

theorem claimAgain_returns : (exec World.next World.start claimAgain).isSome = true := by decide

/-- A claim is finished, and the page is claimed again in the next episode. -/
theorem claim_again_excludes :
    ∃ w, exec World.next World.start claimAgain = some w ∧ w.Outstanding ⟨1, 0x5000⟩ 2 ∧
      ∀ episode, w.Outstanding ⟨1, 0x5000⟩ episode → episode = 2 := by
  have second : ((exec World.next World.start claimAgain).get claimAgain_returns).Outstanding
      ⟨1, 0x5000⟩ 2 := by decide
  refine ⟨_, (Option.some_get claimAgain_returns).symm, second, ?_⟩
  intro episode outstanding
  have excluded := page_transfer_exclusion (exec_get_reach claimAgain_returns)
  exact excluded.1 _ _ _ outstanding second

end Vmctx.PageTransfer
