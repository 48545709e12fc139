import Vmctx.PageTransfer.Settle
import Vmctx.System.History
/-!
# A loan is cleared after its page is here

Every entry of the call's history is justified by the entries before it: a loan is cleared under a
claim after the page was landed and its acknowledgement confirmed, or after the source had nothing
and a complete copy was read where the page belongs; an acknowledgement is sent after a landing. At
each point of the call the latest entries are known, and other workers change neither them nor the
claim, so this is carried from step to step.
-/

namespace Vmctx.PageTransfer

open Vmctx.System

def Event.acks : Event → Bool
  | .sent .. => true
  | .confirmed .. => true
  | _ => false

/-- The page that an entry says is lent to nobody. -/
def Event.settles : Event → Option UInt64
  | .unlent page => some page
  | .cleared page => some page
  | _ => none

def Landed (page episode receipt : UInt64) (log : List Event) : Prop :=
  ∃ place backing before, place.of backing = true ∧
    log = .landed page receipt place :: .kept page backing :: .pulled page .bytes backing ::
      .claimed page episode :: before

/-- The page was landed, acknowledged and confirmed under the claim, apart from the confirmation of
an acknowledgement that was queued before. -/
def Returned (page episode : UInt64) (log : List Event) : Prop :=
  ∃ receipt older landed, log = .confirmed page receipt :: .sent page receipt :: (older ++ landed) ∧
    (∀ event, event ∈ older → event.acks = true) ∧ Landed page episode receipt landed

/-- The source had nothing, and a complete copy was read where the page belongs, under the claim. -/
def Survived (page episode : UInt64) (log : List Event) : Prop :=
  ∃ place backing pull before, place.of backing = true ∧ (pull = .absent ∨ pull = .notHolder) ∧
    log = .found page place :: .kept page backing :: .pulled page pull backing ::
      .claimed page episode :: before

/-- What justifies an entry. An acknowledgement may have been queued before the call. -/
def Reason (queued : Option Ack) : Event → List Event → Prop
  | .unlent page, earlier => ∃ episode before, earlier = .claimed page episode :: before
  | .sent page receipt, earlier => (∃ place, .landed page receipt place ∈ earlier) ∨
    ∃ target, queued = some ⟨target, page, receipt⟩
  | .confirmed page receipt, earlier => ∃ before, earlier = .sent page receipt :: before
  | .landed page _ place, earlier => ∃ backing before, place.of backing = true ∧
    earlier = .kept page backing :: .pulled page .bytes backing :: before
  | .cleared page, earlier => ∃ episode,
    Returned page episode earlier ∨ Survived page episode earlier
  | .released _ st, _ => st = .invalid ∨ st = .shared ∨ st = .owned
  | _, _ => True

def Turn.key (t : Turn) : UInt64 × PgClaim := (t.page, t.claim)

def Pc.todo : Pc → Option (List UInt64)
  | choosing rest => some rest
  | trying page rest _ => some (page :: rest)
  | waiting page rest _ => some (page :: rest)
  | leaving t .moveOn => some t.rest
  | releasing t .moveOn => some t.rest
  | leaving _ .fail => none
  | releasing _ .fail => none
  | finishing true => some []
  | returned true => some []
  | pc => pc.turn?.map fun t => t.page :: t.rest

def Covers (rest : List UInt64) (log : List Event) (page : UInt64) : Prop :=
  page ∈ rest ∨ Event.unlent page ∈ log ∨ Event.cleared page ∈ log

variable {rest : List UInt64} {log : List Event} {page : UInt64}

theorem Covers.cons (event : Event) (covers : Covers rest log page) :
    Covers rest (event :: log) page := by
  rcases covers with later | unlent | cleared
  · exact .inl later
  · exact .inr (.inl (List.mem_cons_of_mem _ unlent))
  · exact .inr (.inr (List.mem_cons_of_mem _ cleared))

theorem Covers.settled {event : Event} {head : UInt64} (settles : event.settles = some head)
    (covers : Covers (head :: rest) log page) : Covers rest (event :: log) page := by
  rcases covers.cons event with later | settled
  · rcases List.mem_cons.mp later with rfl | after
    · cases event with
      | unlent | cleared =>
        cases settles
        exact .inr (by simp)
      | _ => cases settles
    · exact .inl after
  · exact .inr settled

/-- The acknowledgement is of a landed page, or was queued before the call. -/
def Owed (queued : Option Ack) (log : List Event) (a : Ack) : Prop :=
  (∃ place, Event.landed a.page a.episode place ∈ log) ∨ queued = some a

theorem Owed.cons {queued : Option Ack} {a : Ack} (event : Event) (owed : Owed queued log a) :
    Owed queued (event :: log) a := by
  rcases owed with ⟨place, landed⟩ | before
  · exact .inl ⟨place, List.mem_cons_of_mem _ landed⟩
  · exact .inr before

namespace Settling

variable {s s' : Settling} {queued : Option Ack} {label : Label}

def Shape (s : Settling) : Prop :=
  match s.pc with
  | .checking t => ∃ before, s.log = .claimed t.page t.claim.episode :: before
  | .looking t => ∃ before, s.log = .claimed t.page t.claim.episode :: before
  | .sampling t => ∃ before, s.log = .claimed t.page t.claim.episode :: before
  | .pulling t => ∃ before, s.log = .claimed t.page t.claim.episode :: before
  | .comparing t pull => ∃ before, s.log = .pulled t.page pull t.backing ::
    .claimed t.page t.claim.episode :: before
  | .landing t => ∃ before, s.log = .kept t.page t.backing :: .pulled t.page .bytes t.backing ::
    .claimed t.page t.claim.episode :: before
  | .reading t => ∃ pull before, (pull = .absent ∨ pull = .notHolder) ∧
    s.log = .kept t.page t.backing :: .pulled t.page pull t.backing ::
      .claimed t.page t.claim.episode :: before
  | .queueing t => Landed t.page t.claim.episode t.receipt.episode s.log
  | .flushing t => (∃ target, s.pending = some ⟨target, t.page, t.receipt.episode⟩) ∧
    ∃ older landed, s.log = older ++ landed ∧ (∀ event, event ∈ older → event.acks = true) ∧
      Landed t.page t.claim.episode t.receipt.episode landed
  | .retiring t => Returned t.page t.claim.episode s.log ∨ Survived t.page t.claim.episode s.log
  | _ => True

structure Kept (queued : Option Ack) (s : Settling) : Prop where
  good : s.claims.Good
  reasons : Justified (Reason queued) s.log
  shape : s.Shape
  owed : ∀ a, s.pending = some a → Owed queued s.log a
  held : ∀ t, s.pc.turn? = some t → t.claim.as = s.as ∧ t.claim.page = pageBase t.page ∧
    s.claims.Outstanding (PgKey.of s.as t.page) t.claim.episode.toNat ∧ t.final.stable = true
  freed : ∀ page episode, Event.claimed page episode ∈ s.log →
    (∃ t, s.pc.turn? = some t ∧ t.page = page ∧ t.claim.episode = episode) ∨
      (PgKey.of s.as page, episode.toNat) ∈ s.claims.finished ∨ s.pc = .dead
  covered : ∀ rest, s.pc.todo = some rest → ∀ page, page ∈ s.rows → Covers rest s.log page

theorem Kept.within (kept : s.Kept queued) (new : List Event)
    (same : s'.as = s.as ∧ s'.claims = s.claims ∧ s'.rows = s.rows) (log : s'.log = new ++ s.log)
    (unclaimed : ∀ page episode, Event.claimed page episode ∉ new)
    (reasons : Justified (Reason queued) s'.log) (shape : s'.Shape)
    (owed : ∀ a, s'.pending = some a → Owed queued s'.log a)
    (turn : s'.pc.turn?.map Turn.key = s.pc.turn?.map Turn.key)
    (final : ∀ t, s'.pc.turn? = some t → t.final.stable = true)
    (covered : ∀ rest, s'.pc.todo = some rest → ∀ page, page ∈ s.rows → Covers rest s'.log page)
    (alive : s.pc ≠ .dead) : s'.Kept queued := by
  obtain ⟨as, claims, rows⟩ := same
  refine ⟨claims ▸ kept.good, reasons, shape, owed, ?_, ?_, rows ▸ covered⟩
  · intro t' at_
    rw [at_, Option.map_some, eq_comm, Option.map_eq_some_iff] at turn
    obtain ⟨t, found, key⟩ := turn
    rw [Turn.key, Turn.key, Prod.mk.injEq] at key
    obtain ⟨space, base, outstanding, -⟩ := kept.held t found
    rw [as, claims, ← key.1, ← key.2]
    exact ⟨space, base, outstanding, final t' at_⟩
  · intro page episode member
    rw [log, List.mem_append] at member
    rcases member with fresh | old
    · exact absurd fresh (unclaimed page episode)
    · rw [as, claims]
      rcases kept.freed page episode old with ⟨t, found, samePage, sameEpisode⟩ | done | gone
      · rw [found, Option.map_some, Option.map_eq_some_iff] at turn
        obtain ⟨t', found', key⟩ := turn
        rw [Turn.key, Turn.key, Prod.mk.injEq] at key
        refine .inl ⟨t', found', ?_, ?_⟩
        · rw [key.1, samePage]
        · rw [key.2, sameEpisode]
      · exact .inr (.inl done)
      · exact absurd gone alive

theorem Kept.dies (kept : s.Kept queued) (same : s'.as = s.as ∧ s'.claims = s.claims)
    (dead : s'.pc = .dead) (reasons : Justified (Reason queued) s'.log)
    (owed : ∀ a, s'.pending = some a → Owed queued s'.log a) : s'.Kept queued := by
  refine ⟨same.2 ▸ kept.good, reasons, ?_, owed, ?_, ?_, ?_⟩
  · rw [Shape, dead]
    trivial
  · intro t at_
    rw [dead] at at_
    cases at_
  · intro page episode _
    exact .inr (.inr dead)
  · intro rest at_
    rw [dead] at at_
    cases at_

/-- The entries of a flush that the source confirmed. -/
def acked (s : Settling) : List Event :=
  s.pending.elim [] fun a => [.confirmed a.page a.episode, .sent a.page a.episode]

theorem acked_acks (event : Event) (member : event ∈ s.acked) : event.acks = true := by
  unfold acked at member
  cases pending : s.pending with
  | none =>
    rw [pending] at member
    cases member
  | some a =>
    simp only [pending, Option.elim, List.mem_cons, List.not_mem_nil, or_false] at member
    rcases member with rfl | rfl <;> rfl

theorem ackFlush_cases (s : Settling) (confirmed : Bool) (pc : Pc) :
    s.ackFlush confirmed pc = s.goto .dead ∨
    (∃ a, s.pending = some a ∧
      s.ackFlush confirmed pc = (s.note (.sent a.page a.episode)).goto .dead) ∨
    s.ackFlush confirmed pc = { s with pending := none, log := s.acked ++ s.log, pc := pc } := by
  unfold ackFlush
  cases pending : s.pending with
  | none => exact .inr (.inr (by simp [acked, pending, goto]))
  | some a =>
    cases wellFormed : a.wellFormed with
    | false => exact .inl (by simp [wellFormed])
    | true =>
      cases confirmed with
      | false => exact .inr (.inl ⟨a, rfl, by simp [wellFormed]⟩)
      | true => exact .inr (.inr (by simp [wellFormed, acked, pending, goto, note]))

variable {pc : Pc}

section

variable (kept : s.Kept queued)
include kept

theorem Kept.sends {a : Ack} (pending : s.pending = some a) :
    Justified (Reason queued) (.sent a.page a.episode :: s.log) := by
  refine kept.reasons.cons ?_
  rcases kept.owed a pending with landed | before
  · exact .inl landed
  · exact .inr ⟨a.target, before⟩

theorem Kept.flushes (confirmed : Bool) (pc : Pc) :
    (s.ackFlush confirmed pc).pc = .dead ∧ (s.ackFlush confirmed pc).Kept queued ∨
    s.ackFlush confirmed pc = { s with pending := none, log := s.acked ++ s.log, pc := pc } := by
  rcases ackFlush_cases s confirmed pc with done | ⟨a, pending, done⟩ | done
  · rw [done]
    exact .inl ⟨rfl, kept.dies ⟨rfl, rfl⟩ rfl kept.reasons kept.owed⟩
  · rw [done]
    refine .inl ⟨rfl, kept.dies ⟨rfl, rfl⟩ rfl (kept.sends pending) ?_⟩
    intro b still
    exact (kept.owed b still).cons _
  · exact .inr done

/-- The pages still to be covered are the same ones, with a longer history. -/
theorem Kept.still (new : List Event) (same : pc.todo = s.pc.todo) (rest : List UInt64)
    (todo : pc.todo = some rest) (page : UInt64) (member : page ∈ s.rows) :
    Covers rest (new ++ s.log) page := by
  induction new with
  | nil => exact kept.covered rest (same.symm.trans todo) page member
  | cons event new ih => exact ih.cons event

theorem Kept.acked {pending : Option Ack} (turn : pc.turn?.map Turn.key = s.pc.turn?.map Turn.key)
    (final : ∀ t, pc.turn? = some t → t.final.stable = true) (todo : pc.todo = s.pc.todo)
    (alive : s.pc ≠ .dead) (owed : ∀ a, pending = some a → Owed queued s.log a)
    (shape : { s with pending := pending, log := s.acked ++ s.log, pc := pc }.Shape) :
    { s with pending := pending, log := s.acked ++ s.log, pc := pc }.Kept queued := by
  refine kept.within s.acked ⟨rfl, rfl, rfl⟩ rfl ?_ ?_ shape ?_ turn final (kept.still _ todo) alive
  · intro page episode member
    cases acked_acks _ member
  · unfold Settling.acked
    cases before : s.pending with
    | none => exact kept.reasons
    | some a => exact (kept.sends before).cons ⟨s.log, rfl⟩
  · intro a same
    unfold Settling.acked
    cases s.pending with
    | none => exact owed a same
    | some b => exact ((owed a same).cons _).cons _

theorem Kept.flush {confirmed : Bool} (turn : pc.turn?.map Turn.key = s.pc.turn?.map Turn.key)
    (final : ∀ t, pc.turn? = some t → t.final.stable = true) (todo : pc.todo = s.pc.todo)
    (alive : s.pc ≠ .dead)
    (shape : { s with pending := none, log := s.acked ++ s.log, pc := pc }.Shape) :
    (s.ackFlush confirmed pc).Kept queued := by
  rcases kept.flushes confirmed pc with ⟨-, dead⟩ | done
  · exact dead
  · rw [done]
    exact kept.acked turn final todo alive nofun shape

end

variable {event : Event} {t t' : Turn}

section

variable (kept : s.Kept queued)
include kept

theorem Kept.notes (loans : List Loan) (at_ : s.pc.turn? = some t) (to_ : pc.turn? = some t')
    (key : t'.key = t.key) (stable : t'.final.stable = true)
    (unclaimed : ∀ page episode, event ≠ .claimed page episode) (reason : Reason queued event s.log)
    (shape : (({ s with loans := loans }.note event).goto pc).Shape)
    (covered : ∀ rest, pc.todo = some rest → ∀ page, page ∈ s.rows →
      Covers rest (event :: s.log) page) :
    (({ s with loans := loans }.note event).goto pc).Kept queued := by
  refine kept.within [event] ⟨rfl, rfl, rfl⟩ rfl ?_ (kept.reasons.cons reason) shape ?_ ?_
    ?_ covered ?_
  · intro page episode member
    exact unclaimed page episode (List.mem_singleton.mp member).symm
  · intro a pending
    exact (kept.owed a pending).cons _
  · change pc.turn?.map Turn.key = _
    rw [to_, at_, Option.map_some, Option.map_some, key]
  · intro u found
    cases to_.symm.trans found
    exact stable
  · intro dead
    rw [dead] at at_
    cases at_

theorem Kept.goes (at_ : s.pc.turn? = some t) (to_ : pc.turn? = some t') (key : t'.key = t.key)
    (stable : t'.final.stable = true) (shape : (s.goto pc).Shape)
    (covered : ∀ rest, pc.todo = some rest → ∀ page, page ∈ s.rows → Covers rest s.log page) :
    (s.goto pc).Kept queued := by
  refine kept.within [] ⟨rfl, rfl, rfl⟩ rfl (by simp) kept.reasons shape kept.owed ?_ ?_
    covered ?_
  · change pc.turn?.map Turn.key = _
    rw [to_, at_, Option.map_some, Option.map_some, key]
  · intro u found
    cases to_.symm.trans found
    exact stable
  · intro dead
    rw [dead] at at_
    cases at_

theorem Kept.between (at_ : s.pc.turn? = none) (to_ : pc.turn? = none) (alive : s.pc ≠ .dead)
    (covered : ∀ rest, pc.todo = some rest → ∀ page, page ∈ s.rows → Covers rest s.log page) :
    (s.goto pc).Kept queued := by
  refine kept.within [] ⟨rfl, rfl, rfl⟩ rfl (by simp) kept.reasons ?_ kept.owed ?_ ?_
    covered alive
  · cases pc <;> trivial
  · change pc.turn?.map Turn.key = _
    rw [to_, at_]
  · intro u found
    cases to_.symm.trans found

theorem Kept.other (call : Call) {claims : World} (allowed : s.allows call)
    (ran : s.claims.next call = some claims) : { s with claims := claims }.Kept queued := by
  obtain ⟨reply, returned⟩ := step_returned ran
  obtain ⟨good, finished, outstanding⟩ := other_call kept.good returned
  refine ⟨good, kept.reasons, kept.shape, kept.owed, ?_, ?_, kept.covered⟩
  · intro t at_
    obtain ⟨space, base, claimed, stable⟩ := kept.held t at_
    refine ⟨space, base, outstanding _ _ claimed ?_, stable⟩
    rintro c st rfl ⟨key, episode⟩
    have at_ : s.pc.turn? = some t := at_
    simp [allows, at_, key, UInt64.toNat_inj.mp episode] at allowed
  · intro page episode member
    rcases kept.freed page episode member with hand | done | dead
    · exact .inl hand
    · exact .inr (.inl (finished _ done))
    · exact .inr (.inr dead)

theorem Kept.claim {started : UInt64} (at_ : s.pc = .trying page rest started)
    (ran : s.tryClaim page rest started = some s') : s'.Kept queued := by
  have idle : s.pc.turn? = none := by
    rw [at_]
    rfl
  have covered := kept.covered (page :: rest) (by rw [at_]; rfl)
  have alive : s.pc ≠ .dead := by
    rw [at_]
    nofun
  simp only [tryClaim] at ran
  split at ran
  · cases ran
    exact kept.dies ⟨rfl, rfl⟩ rfl kept.reasons kept.owed
  · next claims prior claim returned =>
    cases ran
    obtain ⟨good, finished, -⟩ := other_call kept.good returned
    cases call_cases kept.good.wf returned with
    | @claimed _ _ _ _ t' slot st was stable transient counted wf tracked =>
    refine ⟨good, kept.reasons.cons trivial, ⟨s.log, rfl⟩, ?_, ?_, ?_, ?_⟩
    · intro a pending
      exact (kept.owed a pending).cons _
    · intro t hand
      cases hand
      refine ⟨rfl, rfl, (good.outstanding_iff _ _).mpr ?_, ?_⟩
      · refine ⟨{ slot with episode := slot.episode + 1, st := st }, ?_, transient, rfl⟩
        change t'.tracked (PgKey.of s.as page) = _
        rw [tracked, Function.update_self]
      · simp [PgSt.stable, stable]
    · intro other episode member
      rcases List.mem_cons.mp member with same | old
      · cases same
        exact .inl ⟨_, rfl, rfl, rfl⟩
      · rcases kept.freed other episode old with ⟨t, hand, -⟩ | done | dead
        · rw [idle] at hand
          cases hand
        · exact .inr (.inl (finished _ done))
        · exact absurd dead alive
    · intro rest' todo p member
      cases todo
      exact (covered p member).cons _
  · next claims errno returned =>
    cases ran
    have changed : { s with claims := claims }.Kept queued := by
      refine kept.other (.tryClaim s.as page PgSt.requesting.code
        (some ⟨0, 0, 0, .invalid⟩)) ?_ ?_
      · simp [allows]
      · simp only [World.next, returned]
    refine changed.between idle ?_ alive ?_
    · split <;> rfl
    · intro rest' todo
      split at todo <;> cases todo
      exact covered
  · cases ran

theorem Kept.release {how : Leave} (at_ : s.pc = .releasing t how)
    (ran : s.release t how = some s') :
    s'.Kept queued ∧ s'.pc = t.after how ∧ s'.loans = s.loans := by
  have hand : s.pc.turn? = some t := by
    rw [at_]
    rfl
  obtain ⟨space, base, outstanding, stable⟩ := kept.held t hand
  have key : PgKey.of t.claim.as t.claim.page = PgKey.of s.as t.page := by
    rw [space, base, PgKey.of_base]
  have steady : t.final = .invalid ∨ t.final = .shared ∨ t.final = .owned :=
    (stable_iff t.final).mp (by simpa [PgSt.stable] using stable)
  have named : PgSt.ofCode? t.final.code = some t.final := by
    rcases steady with same | same | same <;> rw [same] <;> rfl
  obtain ⟨claims, reply, returned, exact_, -⟩ :=
    kept.good.finish_exact (some t.claim) t.final.code
  obtain ⟨after, rfl⟩ := exact_.mpr ⟨t.claim, t.final, rfl, named, steady, key ▸ outstanding⟩
  obtain ⟨good, finished, -⟩ := other_call kept.good returned
  have ended : (PgKey.of s.as t.page, t.claim.episode.toNat) ∈ claims.finished := by
    cases call_cases kept.good.wf returned with
    | finished completes =>
      have same := Option.some.inj completes.1
      rw [← same, key]
      exact List.mem_cons_self
  simp only [Settling.release, returned, Option.some.injEq] at ran
  subst ran
  have free : (t.after how).turn? = none := by cases how <;> rfl
  refine ⟨⟨good, kept.reasons.cons steady, ?_, ?_, ?_, ?_, ?_⟩, rfl, rfl⟩
  · cases how <;> trivial
  · intro a pending
    exact (kept.owed a pending).cons _
  · intro u found
    cases free.symm.trans found
  · intro page episode member
    rcases List.mem_cons.mp member with same | old
    · cases same
    · rcases kept.freed page episode old with ⟨u, found, rfl, rfl⟩ | done | dead
      · cases hand.symm.trans found
        exact .inr (.inl ended)
      · exact .inr (.inl (finished _ done))
      · rw [at_] at dead
        cases dead
  · intro rest todo page member
    have before : s.pc.todo = some rest := by
      rw [at_]
      cases how with
      | moveOn | again => exact todo
      | fail => cases todo
    exact (kept.covered rest before page member).cons _

end

theorem landing_of {backing : Backing} {copied objected : Int} {place : Place}
    (stored : landing backing copied objected = some place) : place.of backing = true := by
  cases backing with
  | own =>
    simp only [landing] at stored
    split at stored
    · cases stored
      rfl
    · split at stored <;> cases stored
      rfl
  | slot n =>
    simp only [landing] at stored
    split at stored <;> cases stored
    simp [Place.of]

theorem place_of (backing : Backing) : backing.place.of backing = true := by
  cases backing <;> simp [Backing.place, Place.of]

section

variable (kept : s.Kept queued)
include kept

theorem Kept.queue (at_ : s.pc = .queueing t) (confirmed : Bool) :
    (s.ackInstalled t confirmed).Kept queued := by
  unfold ackInstalled
  split
  · exact kept.dies ⟨rfl, rfl⟩ rfl kept.reasons kept.owed
  have hand : s.pc.turn? = some t := by rw [at_]; rfl
  have stable := (kept.held t hand).2.2.2
  have shape : Landed t.page t.claim.episode t.receipt.episode s.log := by
    simpa only [Shape, at_] using kept.shape
  have alive : s.pc ≠ .dead := by
    rw [at_]
    nofun
  rcases kept.flushes confirmed
    (.flushing { t with receipt := { t.receipt with ackQueued := true } }) with ⟨dead, kept⟩ | done
  · simp only [dead]
    exact kept
  · simp only [done]
    refine kept.acked ?_ ?_ (by rw [at_]; rfl) alive ?_ ?_
    · rw [hand]
      rfl
    · intro u found
      cases found
      exact stable
    · intro a same
      cases same
      obtain ⟨place, backing, before, -, latest⟩ := shape
      exact .inl ⟨place, by rw [latest]; exact List.mem_cons_self⟩
    · exact ⟨⟨_, rfl⟩, s.acked, s.log, rfl, acked_acks, shape⟩

theorem Kept.snapshot (at_ : s.pc = .begin_) : s.copyLoans.Kept queued := by
  refine ⟨kept.good, kept.reasons, trivial, kept.owed, nofun, ?_, ?_⟩
  · intro page episode member
    rcases kept.freed page episode member with ⟨t, hand, -⟩ | done | dead
    · rw [at_] at hand
      cases hand
    · exact .inr (.inl done)
    · rw [at_] at dead
      cases dead
  · intro rest todo page member
    cases todo
    exact .inl member

theorem Kept.choose (at_ : s.pc = .choosing rest) (now : UInt64) :
    (s.choose now rest).Kept queued := by
  cases rest with
  | nil =>
    exact kept.between (by rw [at_]; rfl) rfl (by rw [at_]; nofun)
      (kept.still [] (by rw [at_]; rfl))
  | cons page rest =>
    exact kept.between (by rw [at_]; rfl) rfl (by rw [at_]; nofun)
      (kept.still [] (by rw [at_]; rfl))

theorem Kept.holder (at_ : s.pc = .checking t) : (s.readHolder t).Kept queued := by
  unfold readHolder
  have hand : s.pc.turn? = some t := by rw [at_]; rfl
  have stable := (kept.held t hand).2.2.2
  have shape : ∃ before, s.log = .claimed t.page t.claim.episode :: before := by
    simpa only [Shape, at_] using kept.shape
  split
  · obtain ⟨before, latest⟩ := shape
    refine kept.notes s.loans hand rfl rfl stable nofun ⟨_, before, latest⟩ trivial ?_
    intro rest todo page member
    cases todo
    exact (kept.covered _ (by rw [at_]; rfl) page member).settled rfl
  · exact kept.goes hand rfl rfl stable shape (kept.still [] (by rw [at_]; rfl))

theorem Kept.shared (at_ : s.pc = .looking t) : (s.readShared t).Kept queued := by
  have hand : s.pc.turn? = some t := by rw [at_]; rfl
  have shape : ∃ before, s.log = .claimed t.page t.claim.episode :: before := by
    simpa only [Shape, at_] using kept.shape
  exact kept.goes hand rfl rfl (kept.held t hand).2.2.2 shape (kept.still [] (by rw [at_]; rfl))

theorem Kept.sample (at_ : s.pc = .sampling t) (mapped : Bool) (offset : Option Nat) :
    (s.sample t mapped offset).Kept queued := by
  unfold Settling.sample
  have hand : s.pc.turn? = some t := by rw [at_]; rfl
  split
  · exact kept.goes hand rfl rfl (kept.held t hand).2.2.2 trivial nofun
  · have shape : ∃ before, s.log = .claimed t.page t.claim.episode :: before := by
      simpa only [Shape, at_] using kept.shape
    exact kept.goes hand rfl rfl (kept.held t hand).2.2.2 shape (kept.still [] (by rw [at_]; rfl))

theorem Kept.pull (at_ : s.pc = .pulling t) (reply : FetchReply) :
    (s.pull t reply).Kept queued := by
  unfold Settling.pull
  have hand : s.pc.turn? = some t := by rw [at_]; rfl
  split
  · exact kept.dies ⟨rfl, rfl⟩ rfl kept.reasons kept.owed
  · have shape : ∃ before, s.log = .claimed t.page t.claim.episode :: before := by
      simpa only [Shape, at_] using kept.shape
    obtain ⟨before, latest⟩ := shape
    refine kept.notes s.loans hand rfl rfl (kept.held t hand).2.2.2 nofun trivial ?_
      (kept.still [_] (by rw [at_]; rfl))
    exact ⟨before, by rw [← latest]; rfl⟩

theorem Kept.compare {pull : Pull} (at_ : s.pc = .comparing t pull) (mapped : Bool)
    (offset : Option Nat) : (s.compare t pull mapped offset).Kept queued := by
  unfold Settling.compare
  have hand : s.pc.turn? = some t := by rw [at_]; rfl
  have stable := (kept.held t hand).2.2.2
  split
  · have shape : ∃ before, s.log = .pulled t.page pull t.backing ::
        .claimed t.page t.claim.episode :: before := by
      simpa only [Shape, at_] using kept.shape
    obtain ⟨before, latest⟩ := shape
    have todo : some (t.page :: t.rest) = s.pc.todo := by rw [at_]; rfl
    cases pull with
    | bytes =>
      refine kept.notes s.loans hand rfl rfl stable nofun trivial ?_ (kept.still [_] todo)
      exact ⟨before, by rw [← latest]; rfl⟩
    | absent =>
      refine kept.notes s.loans hand rfl rfl stable nofun trivial ?_ (kept.still [_] todo)
      exact ⟨.absent, before, .inl rfl, by rw [← latest]; rfl⟩
    | notHolder =>
      refine kept.notes s.loans hand rfl rfl stable nofun trivial ?_ (kept.still [_] todo)
      exact ⟨.notHolder, before, .inr rfl, by rw [← latest]; rfl⟩
    | claim =>
      exact kept.notes s.loans hand rfl rfl stable nofun trivial trivial (kept.still [_] todo)
    | _ => exact kept.notes s.loans hand rfl rfl stable nofun trivial trivial nofun
  · exact kept.goes hand rfl rfl stable trivial nofun

theorem Kept.land (at_ : s.pc = .landing t) (copied objected : Int) :
    (s.land t copied objected).Kept queued := by
  unfold Settling.land
  have hand : s.pc.turn? = some t := by rw [at_]; rfl
  have stable := (kept.held t hand).2.2.2
  split
  · exact kept.goes hand rfl rfl stable trivial nofun
  · next place stored =>
    have shape : ∃ before, s.log = .kept t.page t.backing :: .pulled t.page .bytes t.backing ::
        .claimed t.page t.claim.episode :: before := by
      simpa only [Shape, at_] using kept.shape
    obtain ⟨before, latest⟩ := shape
    have belongs : place.of t.backing = true := landing_of stored
    refine kept.notes s.loans hand rfl rfl stable nofun ?_ ?_ (kept.still [_] (by rw [at_]; rfl))
    · exact ⟨t.backing, _, belongs, latest⟩
    · exact ⟨place, t.backing, before, belongs, by rw [← latest]; rfl⟩

theorem Kept.flushed (at_ : s.pc = .flushing t) (confirmed : Bool) :
    (s.ackFlush confirmed (.retiring t)).Kept queued := by
  have hand : s.pc.turn? = some t := by rw [at_]; rfl
  have shape : (∃ target, s.pending = some ⟨target, t.page, t.receipt.episode⟩) ∧
      ∃ older landed, s.log = older ++ landed ∧ (∀ event, event ∈ older → event.acks = true) ∧
        Landed t.page t.claim.episode t.receipt.episode landed := by
    simpa only [Shape, at_] using kept.shape
  obtain ⟨⟨target, pending⟩, older, landed, log, acks, complete⟩ := shape
  refine kept.flush ?_ ?_ (by rw [at_]; rfl) (by rw [at_]; nofun) ?_
  · rw [hand]
    rfl
  · intro u found
    cases found
    exact (kept.held t hand).2.2.2
  · exact .inl ⟨_, older, landed, by simp [Settling.acked, pending, log], acks, complete⟩

theorem Kept.read (at_ : s.pc = .reading t) (has : Bool) (got : Int) :
    (s.readCopy t has got).Kept queued := by
  unfold readCopy
  have hand : s.pc.turn? = some t := by rw [at_]; rfl
  have stable := (kept.held t hand).2.2.2
  split
  · have shape : ∃ pull before, (pull = .absent ∨ pull = .notHolder) ∧
        s.log = .kept t.page t.backing :: .pulled t.page pull t.backing ::
          .claimed t.page t.claim.episode :: before := by
      simpa only [Shape, at_] using kept.shape
    obtain ⟨pull, before, nothing, latest⟩ := shape
    have belongs : t.backing.place.of t.backing = true := place_of t.backing
    refine kept.notes s.loans hand rfl rfl stable nofun trivial ?_
      (kept.still [_] (by rw [at_]; rfl))
    exact .inr ⟨_, t.backing, pull, before, belongs, nothing, by rw [← latest]; rfl⟩
  · exact kept.goes hand rfl rfl stable trivial nofun

theorem Kept.retire (at_ : s.pc = .retiring t) : (s.retire t).Kept queued := by
  have hand : s.pc.turn? = some t := by rw [at_]; rfl
  have shape : Returned t.page t.claim.episode s.log ∨ Survived t.page t.claim.episode s.log := by
    simpa only [Shape, at_] using kept.shape
  refine kept.notes _ hand rfl rfl ?_ nofun ⟨_, shape⟩ trivial ?_
  · cases t.shared <;> rfl
  · intro rest todo page member
    cases todo
    exact (kept.covered _ (by rw [at_]; rfl) page member).settled rfl

theorem Kept.leave {how : Leave} (at_ : s.pc = .leaving t how) (confirmed : Bool) :
    (s.receiptFinish t how confirmed).Kept queued := by
  unfold receiptFinish
  have hand : s.pc.turn? = some t := by rw [at_]; rfl
  have stable := (kept.held t hand).2.2.2
  have todo : (Pc.releasing t how).todo = s.pc.todo := by
    rw [at_]
    cases how <;> rfl
  split
  · exact kept.goes hand rfl rfl stable trivial (kept.still [] todo)
  · split
    · exact kept.dies ⟨rfl, rfl⟩ rfl kept.reasons kept.owed
    · refine kept.flush ?_ ?_ todo (by rw [at_]; nofun) trivial
      · rw [hand]
        rfl
      · intro u found
        cases found
        exact stable

theorem Kept.wait {started : UInt64} (at_ : s.pc = .waiting page rest started) (now : UInt64) :
    (s.wait page rest started now).Kept queued := by
  unfold Settling.wait
  split
  · exact kept.between (by rw [at_]; rfl) rfl (by rw [at_]; nofun) nofun
  · exact kept.between (by rw [at_]; rfl) rfl (by rw [at_]; nofun)
      (kept.still [] (by rw [at_]; rfl))

theorem Kept.finish {ok : Bool} (at_ : s.pc = .finishing ok) (confirmed : Bool) :
    (s.ackFlush confirmed (.returned ok)).Kept queued := by
  refine kept.flush (by rw [at_]; rfl) nofun ?_ (by rw [at_]; nofun) trivial
  rw [at_]
  cases ok <;> rfl

theorem Kept.step (step : Step s label s') : s'.Kept queued := by
  simp only [Computed, next] at step
  split at step
  all_goals try (cases step)
  · next at_ => exact kept.snapshot at_
  · next at_ => exact kept.choose at_ _
  · next at_ => exact kept.claim at_ step
  · next at_ => exact kept.holder at_
  · next at_ => exact kept.shared at_
  · next at_ => exact kept.sample at_ _ _
  · next at_ => exact kept.pull at_ _
  · next at_ => exact kept.compare at_ _ _
  · next at_ => exact kept.land at_ _ _
  · next at_ => exact kept.queue at_ _
  · next at_ => exact kept.flushed at_ _
  · next at_ => exact kept.read at_ _ _
  · next at_ => exact kept.retire at_
  · next at_ => exact kept.leave at_ _
  · next at_ => exact (kept.release at_ step).1
  · next at_ => exact kept.wait at_ _
  · next at_ => exact kept.finish at_ _
  · obtain ⟨allowed, ran⟩ := Option.ite_none_right_eq_some.mp step
    obtain ⟨claims, returned, rfl⟩ := Option.map_eq_some_iff.mp ran
    exact kept.other _ allowed returned
  · exact ⟨kept.good, kept.reasons, kept.shape, kept.owed, kept.held, kept.freed, kept.covered⟩

end

theorem Kept.start (as : UInt64) {claims : World} (loans : List Loan) (queued : Option Ack)
    (good : claims.Good) : (start as claims loans queued).Kept queued where
  good := good
  reasons := .nil
  shape := trivial
  owed a pending := .inr pending
  held _ hand := by cases hand
  freed _ _ member := by cases member
  covered _ todo := by cases todo

/-! The contract. -/

/-- What the settlement of a session's loans guarantees. -/
structure Settles (queued : Option Ack) (s : Settling) : Prop where
  /-- Every entry of the history is justified by those before it: a loan is cleared after the page
  came back or survived here under the same claim, a page counts as unlent only under its claim, an
  acknowledgement is sent only after a complete landing where the page belongs, and a claim is
  released with a stable state. -/
  justified : Justified (Reason queued) s.log
  /-- The call changes loans by clearing the one of the page in hand, with its claim outstanding,
  and the history says so. -/
  clears : ∀ label s', label.own = true → Step s label s' → s'.loans = s.loans ∨
    ∃ t : Turn, s.claims.Outstanding (PgKey.of s.as t.page) t.claim.episode.toNat ∧
      (Returned t.page t.claim.episode s.log ∨ Survived t.page t.claim.episode s.log) ∧
      s'.loans = pageLendNobody s.loans t.page ∧ s'.log = .cleared t.page :: s.log
  /-- The history says that a page was found without a loan, or its loan cleared, only at a step
  after which the table lends the page to nobody. -/
  unlent : ∀ label s' new event page, Step s label s' → s'.log = new ++ s.log → event ∈ new →
    event.settles = some page → pageHolder s'.loans page = 0
  /-- Zero is returned when every page of the snapshot was found without a loan or cleared. -/
  zero : s.pc = .returned true → ∀ page, page ∈ s.rows →
    Event.unlent page ∈ s.log ∨ Event.cleared page ∈ s.log
  /-- Whenever the call has no page in hand, and so when it returns, every claim it took is
  finished. -/
  released : s.pc.turn? = none → s.pc ≠ .dead → ∀ page episode,
    Event.claimed page episode ∈ s.log →
      (PgKey.of s.as page, episode.toNat) ∈ s.claims.finished
  /-- A release is accepted, and the call goes on. -/
  releases : ∀ t how s', s.pc = .releasing t how → Step s .release s' → s'.pc = t.after how
  /-- The acknowledgement that is still queued is of a landed page. -/
  owed : ∀ a, s.pending = some a → Owed queued s.log a
  /-- Until it returns, the call can take a step. -/
  progress : s.pc ≠ .dead → (∀ ok, s.pc ≠ .returned ok) → ∃ label s', label.own = true ∧
    Step s label s'

/-- A step that leaves the loans as they are and settles no page. -/
def Quiet (s s' : Settling) : Prop :=
  s'.loans = s.loans ∧ ∃ new, s'.log = new ++ s.log ∧ ∀ event ∈ new, event.settles = none

theorem quiet_goto (s : Settling) (pc : Pc) : Quiet s (s.goto pc) := ⟨rfl, [], rfl, by simp⟩

theorem quiet_note (s : Settling) (plain : event.settles = none) (pc : Pc) :
    Quiet s ((s.note event).goto pc) := ⟨rfl, [event], rfl, by simpa using plain⟩

theorem ackFlush_quiet (s : Settling) (confirmed : Bool) (pc : Pc) :
    Quiet s (s.ackFlush confirmed pc) := by
  rcases ackFlush_cases s confirmed pc with done | ⟨a, -, done⟩ | done <;> rw [done]
  · exact quiet_goto s .dead
  · exact quiet_note s rfl .dead
  · refine ⟨rfl, s.acked, rfl, fun event member => ?_⟩
    have acks := acked_acks event member
    cases event <;> first | rfl | cases acks

theorem pageHolder_lendNobody (loans : List Loan) (page : UInt64) :
    pageHolder (pageLendNobody loans page) page = 0 := by
  simp only [pageHolder, loanFind, pageLendNobody, List.find?_map]
  cases found : loans.find? _ with
  | none => rfl
  | some loan =>
    have named := List.find?_some found
    simp only [Function.comp_apply] at named
    by_cases same : loan.page = pageBase page
    · simp [same]
    · simp [same] at named

/-- What a step does to the loans and says of them. -/
inductive Lends (s s' : Settling) : Label → Prop
  | quiet {label : Label} (quiet : Quiet s s') : Lends s s' label
  | others {label : Label} (other : label.own = false) (log : s'.log = s.log) : Lends s s' label
  | unlent {t : Turn} (free : pageHolder s.loans t.page = 0) (loans : s'.loans = s.loans)
      (log : s'.log = .unlent t.page :: s.log) : Lends s s' .holder
  | retires {t : Turn} (at_ : s.pc = .retiring t) (by_ : s' = s.retire t) : Lends s s' .retire

theorem step_lends (step : Step s label s') : Lends s s' label := by
  simp only [Computed, next] at step
  split at step
  all_goals try (cases step)
  case h_1 => exact .quiet ⟨rfl, [], rfl, by simp⟩
  case h_2 => unfold Settling.choose; split <;> exact .quiet (quiet_goto ..)
  case h_3 =>
    simp only [tryClaim] at step
    split at step <;> cases step
    · exact .quiet (quiet_goto ..)
    · exact .quiet ⟨rfl, [.claimed ..], rfl, by simp [Event.settles]⟩
    · exact .quiet ⟨rfl, [], rfl, by simp⟩
  case h_4 =>
    unfold readHolder
    split
    · next free => exact .unlent free rfl rfl
    · exact .quiet (quiet_goto ..)
  case h_5 => exact .quiet (quiet_goto ..)
  case h_6 => unfold Settling.sample; split <;> exact .quiet (quiet_goto ..)
  case h_7 =>
    unfold Settling.pull
    split
    · exact .quiet (quiet_goto ..)
    · exact .quiet (quiet_note s rfl _)
  case h_8 =>
    unfold Settling.compare
    split
    · exact .quiet (quiet_note s rfl _)
    · exact .quiet (quiet_goto ..)
  case h_9 =>
    unfold Settling.land
    split
    · exact .quiet (quiet_goto ..)
    · exact .quiet (quiet_note s rfl _)
  case h_10 =>
    unfold ackInstalled
    split
    · exact .quiet (quiet_goto ..)
    · dsimp only
      split <;> exact .quiet (ackFlush_quiet s ..)
  case h_11 => exact .quiet (ackFlush_quiet ..)
  case h_12 =>
    unfold readCopy
    split
    · exact .quiet (quiet_note s rfl _)
    · exact .quiet (quiet_goto ..)
  case h_13 => exact .retires ‹_› rfl
  case h_14 =>
    unfold receiptFinish
    split
    · exact .quiet (quiet_goto ..)
    · split
      · exact .quiet (quiet_goto ..)
      · exact .quiet (ackFlush_quiet ..)
  case h_15 =>
    simp only [Settling.release] at step
    split at step <;> cases step
    · exact .quiet ⟨rfl, [.released ..], rfl, by simp [Event.settles]⟩
    · exact .quiet ⟨rfl, [], rfl, by simp⟩
    · exact .quiet (quiet_goto ..)
  case h_16 => unfold Settling.wait; split <;> exact .quiet (quiet_goto ..)
  case h_17 => exact .quiet (ackFlush_quiet ..)
  case h_19 =>
    split at step
    · obtain ⟨claims, -, rfl⟩ := Option.map_eq_some_iff.mp step
      exact .others rfl rfl
    · cases step
  all_goals exact .others rfl rfl

theorem Kept.claims (kept : s.Kept queued) (page : UInt64) (rest : List UInt64)
    (started : UInt64) : ∃ s', s.tryClaim page rest started = some s' := by
  obtain aborted | ⟨w, reply, returned, called⟩ := call_tryClaim kept.good.wf s.as page
    PgSt.requesting.code (some ⟨0, 0, 0, .invalid⟩)
  · exact ⟨_, by rw [tryClaim, aborted]⟩
  · cases called with
    | claimFailed named wf same | claimed was stable transient counted wf tracked =>
      exact ⟨_, by rw [tryClaim, returned]⟩

theorem Kept.releases (kept : s.Kept queued) (t : Turn) (how : Leave) :
    ∃ s', s.release t how = some s' := by
  obtain ⟨w, reply, returned, called⟩ := call_finish kept.good.wf (some t.claim) t.final.code
  cases called with
  | finishFailed named refused | finished completes wf tracked =>
    exact ⟨_, by rw [Settling.release, returned]⟩

theorem Kept.progress (kept : s.Kept queued) (alive : s.pc ≠ .dead)
    (open_ : ∀ ok, s.pc ≠ .returned ok) : ∃ label s', label.own = true ∧ Step s label s' := by
  simp only [Computed, next]
  cases at_ : s.pc with
  | begin_ => exact ⟨.snapshot, _, rfl, rfl⟩
  | choosing rest => exact ⟨.choose 0, _, rfl, rfl⟩
  | trying page rest started =>
    obtain ⟨s', ran⟩ := kept.claims page rest started
    exact ⟨.claim, s', rfl, ran⟩
  | checking t => exact ⟨.holder, _, rfl, rfl⟩
  | looking t => exact ⟨.shared, _, rfl, rfl⟩
  | sampling t => exact ⟨.sample false none, _, rfl, rfl⟩
  | pulling t => exact ⟨.pull ⟨true, 0, .zero, 0, 0, 0, 0⟩, _, rfl, rfl⟩
  | comparing t pull => exact ⟨.compare false none, _, rfl, rfl⟩
  | landing t => exact ⟨.land 0 0, _, rfl, rfl⟩
  | queueing t => exact ⟨.queue true, _, rfl, rfl⟩
  | flushing t => exact ⟨.flush true, _, rfl, rfl⟩
  | reading t => exact ⟨.read false 0, _, rfl, rfl⟩
  | retiring t => exact ⟨.retire, _, rfl, rfl⟩
  | leaving t how => exact ⟨.leave true, _, rfl, rfl⟩
  | releasing t how =>
    obtain ⟨s', ran⟩ := kept.releases t how
    exact ⟨.release, s', rfl, ran⟩
  | waiting page rest started => exact ⟨.wait 0, _, rfl, rfl⟩
  | finishing ok => exact ⟨.finish true, _, rfl, rfl⟩
  | returned ok => exact absurd at_ (open_ ok)
  | dead => exact absurd at_ alive

/-- In every run of the call, from any claim table that calls can lead to and any loans, with any
contention, answers and layouts on the way, its obligations are kept in every state. -/
theorem page_recall_all_settles {as : UInt64} {claims : World} {loans : List Loan}
    {queued : Option Ack} {s : Settling} (table : Reach World.Step World.start claims)
    (run : Reach Step (start as claims loans queued) s) : s.Settles queued := by
  have kept : s.Kept queued :=
    run.invariant (fun _ _ _ kept step => kept.step step)
      (Kept.start as loans queued (reach_good table))
  constructor
  · exact kept.reasons
  · intro label s' own step
    cases step_lends step with
    | quiet quiet => exact .inl quiet.1
    | others other => exact absurd (own.symm.trans other) (by decide)
    | unlent _ loans => exact .inl loans
    | @retires t at_ by_ =>
      subst by_
      have hand : s.pc.turn? = some t := by
        rw [at_]
        rfl
      have evidence := kept.shape
      simp only [Shape, at_] at evidence
      exact .inr ⟨t, (kept.held t hand).2.2.1, evidence, rfl, rfl⟩
  · intro label s' new event page step log member settles
    cases step_lends step with
    | quiet quiet =>
      obtain ⟨-, also, grown, plain⟩ := quiet
      cases List.append_cancel_right (log.symm.trans grown)
      cases (plain event member).symm.trans settles
    | others _ same =>
      rw [same, eq_comm, List.append_left_eq_self] at log
      cases log ▸ member
    | @unlent t free loans grown =>
      cases List.append_cancel_right (log.symm.trans (grown.trans (List.singleton_append ..).symm))
      cases List.mem_singleton.mp member
      cases settles
      rw [loans]
      exact free
    | @retires t _ by_ =>
      subst by_
      cases List.append_cancel_right (log.symm.trans (List.singleton_append ..).symm)
      cases List.mem_singleton.mp member
      cases settles
      exact pageHolder_lendNobody s.loans t.page
  · intro returned page member
    obtain later | settled := kept.covered [] (by rw [returned]; rfl) page member
    · cases later
    · exact settled
  · intro idle alive page episode claimed
    obtain ⟨t, hand, -⟩ | done | dead := kept.freed page episode claimed
    · rw [idle] at hand
      cases hand
    · exact done
    · exact absurd dead alive
  · intro t how s' at_ step
    simp only [Computed, next, at_] at step
    exact (kept.release at_ step).2.1
  · exact kept.owed
  · exact kept.progress

/-- Two loans are settled: the first page comes back and is acknowledged, the second is absent at
the source and was kept here in a shared slot. -/
theorem page_recall_all_settles_two : ∃ s,
    (Reach Step (start 7 .start [⟨0x2000, 5, true⟩, ⟨0x1000, 5, false⟩] none) s ∧
      s.pc = .returned true ∧ loanSnapshot s.loans = []) ∧ s.Settles none := by
  have ran : (exec next (start 7 .start [⟨0x2000, 5, true⟩, ⟨0x1000, 5, false⟩] none)
      [.snapshot, .choose 0, .claim, .holder, .shared, .sample true (some 3),
        .pull ⟨false, -61, .zero, 0, 0, 0, 0⟩, .compare true (some 3), .read true 4096, .retire,
        .leave true, .release, .choose 0, .claim, .holder, .shared, .sample false none,
        .pull ⟨false, 4096, ⟨1, 2, 0, 1⟩, 0x1000, 9, 1, 1⟩, .compare false none, .land 4096 0,
        .queue true, .flush true, .retire, .leave true, .release, .choose 0, .finish true]).any
      (fun s => decide (s.pc = .returned true) && (loanSnapshot s.loans).isEmpty) = true := by
    decide +kernel
  obtain ⟨s, run, passes⟩ := exec_exhibits ran
  simp only [Bool.and_eq_true, decide_eq_true_eq, List.isEmpty_iff] at passes
  exact ⟨s, ⟨run, passes⟩, page_recall_all_settles .refl run⟩

end Settling

end Vmctx.PageTransfer
