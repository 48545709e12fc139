import Vmctx.Ownership.Dispatch
import Vmctx.System.History
/-!
# Fault service is exclusive

What a worker holds is what its book says it has taken and not given back, and what it holds is
really taken: its claim is outstanding in the transfer table, and its ownership entry has a move in
flight that no other worker began. So at most one worker is inside the part that moves a page, both
reservations are gone when the source is asked, and an entry in transit has a worker that will
release it.
-/

namespace Vmctx.Ownership

open PageTransfer Vmctx.System Function

def holding : List Note → Bool
  | [] => false
  | .owned :: _ => true
  | .disowned :: _ => false
  | _ :: rest => holding rest

def reserved : List Note → Option UInt64
  | [] => none
  | .claimed episode :: _ => some episode
  | .finished .. :: _ => none
  | _ :: rest => reserved rest

def Reason : Note → List Note → Prop
  | .owned, earlier => holding earlier = false
  | .disowned, earlier => holding earlier = true
  | .claimed _, earlier => reserved earlier = none
  | .finished episode st, earlier => reserved earlier = some episode ∧
    (st = .invalid ∨ st = .shared ∨ st = .owned)
  | .served allowed, earlier => ∃ episode before, earlier = .claimed episode :: before ∧
    (allowed = true → .asked ∈ before)
  | .asked, earlier => holding earlier = false ∧ reserved earlier = none ∧ .asked ∉ earlier

def Pc.reserves : Pc → Bool
  | serving => true
  | flushing => true
  | looking => true
  | finishing => true
  | answering => true
  | closing => true
  | _ => false

def Pc.owns : Pc → Bool
  | trying => true
  | yielding => true
  | serving => true
  | flushing => true
  | looking => true
  | finishing => true
  | releasing => true
  | _ => false

def Worker.Place (w : Worker) : Prop :=
  match w.pc with
  | .serving => ∃ episode before, w.book = .claimed episode :: before ∧
    (w.allowed = true → .asked ∈ before)
  | .asking => w.depth = 0
  | .closing => w.final = .invalid ∨ w.final = .shared ∨ w.final = .owned
  | _ => True

structure Worker.Fits (w : Worker) : Prop where
  justified : Justified Reason w.book
  holds : holding w.book = w.owf
  reserves : reserved w.book = w.claim.map PgClaim.episode
  claims : w.claim.isSome = w.pc.reserves
  owns : w.owf = true → w.pc.owns = true
  asks : .asked ∈ w.book ↔ (w.allowed = true ∨ w.pc = .asking ∨ w.pc = .reporting)
  place : w.Place

theorem idle_fits : Worker.idle.Fits where
  justified := .nil
  holds := rfl
  reserves := rfl
  claims := rfl
  owns := nofun
  asks := by simp [Worker.idle]
  place := trivial

variable {pc : Pc} {c : PgClaim} {st : PgSt}

namespace Worker

variable {w w' : Worker}

theorem Fits.moves (fits : w.Fits) (book : w'.book = w.book) (owf : w'.owf = w.owf)
    (claim : w'.claim = w.claim) (reserves : w'.pc.reserves = w.pc.reserves)
    (owns : w.owf = true → w'.pc.owns = true)
    (asks : (w'.allowed = true ∨ w'.pc = .asking ∨ w'.pc = .reporting) ↔
      (w.allowed = true ∨ w.pc = .asking ∨ w.pc = .reporting)) (place : w'.Place) : w'.Fits where
  justified := book ▸ fits.justified
  holds := by rw [book, owf, fits.holds]
  reserves := by rw [book, claim, fits.reserves]
  claims := by rw [claim, reserves, fits.claims]
  owns taken := owns (owf ▸ taken)
  asks := by rw [book, asks, fits.asks]
  place := place

/-- A step that takes nothing, gives nothing back and asks for nothing. -/
theorem Fits.goes (fits : w.Fits) {old : Pc} (at_ : w.pc = old)
    (same : (w'.book, w'.owf, w'.claim, w'.allowed) = (w.book, w.owf, w.claim, w.allowed))
    (like : pc.reserves = old.reserves ∧ (old.owns = true → pc.owns = true) ∧
      (pc = .asking ∨ pc = .reporting ↔ old = .asking ∨ old = .reporting))
    (place : (w'.goto pc).Place) : (w'.goto pc).Fits := by
  simp only [Prod.mk.injEq] at same
  obtain ⟨book, owf, claim, allowed⟩ := same
  obtain ⟨reserves, owns, asks⟩ := like
  rw [← at_] at reserves owns asks
  refine fits.moves book owf claim reserves (fun taken => owns (fits.owns taken)) ?_ place
  rw [show (w'.goto pc).allowed = w.allowed from allowed, ← asks]
  rfl

theorem Fits.notes (fits : w.Fits) {note : Note} (book : w'.book = note :: w.book)
    (reason : Reason note w.book) (holds : holding (note :: w.book) = w'.owf)
    (reserves : reserved (note :: w.book) = w'.claim.map PgClaim.episode)
    (claims : w'.claim.isSome = w'.pc.reserves) (owns : w'.owf = true → w'.pc.owns = true)
    (asks : (w'.allowed = true ∨ w'.pc = .asking ∨ w'.pc = .reporting) ↔
      (note = .asked ∨ w.allowed = true ∨ w.pc = .asking ∨ w.pc = .reporting))
    (place : w'.Place) : w'.Fits where
  justified := book ▸ fits.justified.cons reason
  holds := book ▸ holds
  reserves := book ▸ reserves
  claims := claims
  owns := owns
  asks := by rw [book, List.mem_cons, asks, ← fits.asks, eq_comm]
  place := place

theorem Fits.unclaimed (fits : w.Fits) (idle : w.pc.reserves = false) : w.claim = none := by
  have claims := fits.claims
  rw [idle, Option.isSome_eq_false_iff, Option.isNone_iff_eq_none] at claims
  exact claims

theorem Fits.unowned (fits : w.Fits) (idle : w.pc.owns = false) : w.owf = false := by
  refine Bool.eq_false_iff.mpr fun taken => ?_
  rw [fits.owns taken] at idle
  cases idle

theorem Fits.bare (fits : w.Fits) (idle : w.pc.owns = false ∧ w.pc.reserves = false) :
    w.owf = false ∧ w.claim = none := ⟨fits.unowned idle.1, fits.unclaimed idle.2⟩

theorem Fits.unreserved (fits : w.Fits) (free : w.claim = none) : reserved w.book = none := by
  rw [fits.reserves, free]
  rfl

theorem enters_fits (as : Space) (addr err : UInt64) :
    ({ idle with as := as, addr := addr, err := err }.goto .starting).Fits :=
  idle_fits.moves rfl rfl rfl rfl nofun (by simp [goto, idle]) trivial

theorem reports_fits (as : Space) (addr err : UInt64) :
    (({ idle with as := as, addr := addr, err := err }.note .asked).goto .reporting).Fits :=
  idle_fits.notes rfl ⟨rfl, rfl, List.not_mem_nil⟩ rfl rfl rfl nofun (by simp [goto, note, idle])
    trivial

theorem requests_fits (as : Space) (addr : UInt64) :
    ({ idle with as := as, addr := addr }.goto .requesting).Fits :=
  idle_fits.moves rfl rfl rfl rfl nofun (by simp [goto, idle]) trivial

section

variable (fits : w.Fits)
include fits

theorem Fits.owned (at_ : w.pc = .starting) :
    (({ w with owf := true, claim := none }.note .owned).goto .trying).Fits := by
  obtain ⟨free, unclaimed⟩ := fits.bare (by rw [at_]; decide)
  refine fits.notes rfl (fits.holds.trans free) rfl ?_ rfl (fun _ => rfl) ?_ trivial
  · exact fits.unreserved unclaimed
  · simp [goto, note, at_]

theorem Fits.unowns (at_ : w.pc = .starting) (to_ : pc = .trying ∨ pc = .waiting)
    (generation : UInt32) :
    ({ w with owf := false, claim := none, generation := generation }.goto pc).Fits := by
  obtain ⟨free, unclaimed⟩ := fits.bare (by rw [at_]; decide)
  refine fits.moves rfl free.symm unclaimed.symm ?_ ?_ ?_ ?_
  · rcases to_ with rfl | rfl <;> rw [at_] <;> rfl
  · rw [free]
    nofun
  · rcases to_ with rfl | rfl <;> simp [goto, at_]
  · rcases to_ with rfl | rfl <;> trivial

theorem Fits.claimed (at_ : w.pc = .trying) (c : PgClaim) :
    (({ w with claim := some c }.note (.claimed c.episode)).goto .serving).Fits := by
  have unclaimed : w.claim = none := fits.unclaimed (by rw [at_]; rfl)
  have asks := fits.asks
  simp only [at_, reduceCtorEq, or_false] at asks
  refine fits.notes rfl (fits.unreserved unclaimed) fits.holds rfl rfl (fun _ => rfl) ?_ ?_
  · simp [goto, note, at_]
  · exact ⟨c.episode, w.book, rfl, asks.mpr⟩

theorem Fits.requested (at_ : w.pc = .requesting) (c : PgClaim) :
    (({ w with claim := some c }.note (.claimed c.episode)).goto .answering).Fits := by
  obtain ⟨free, unclaimed⟩ := fits.bare (by rw [at_]; decide)
  refine fits.notes rfl (fits.unreserved unclaimed) fits.holds rfl rfl ?_ ?_ trivial
  · intro taken
    exact absurd (free.symm.trans taken) (by decide)
  · simp [goto, note, at_]

theorem Fits.served (at_ : w.pc = .serving) (result : Int) (depth : Nat) :
    (({ w with result := result, depth := depth }.note (.served w.allowed)).goto
      .flushing).Fits := by
  have place := fits.place
  simp only [Place, at_] at place
  refine fits.notes rfl place fits.holds fits.reserves ?_ (fun _ => rfl) ?_ trivial
  · exact fits.claims.trans (by rw [at_]; rfl)
  · simp [goto, note, at_]

theorem Fits.finished (holds : w.claim = some c)
    (stable : st = .invalid ∨ st = .shared ∨ st = .owned)
    (to_ : (w.pc = .finishing ∧ pc = .releasing) ∨ (w.pc = .closing ∧ pc = .leaving)) :
    (({ w with claim := none }.note (.finished c.episode st)).goto pc).Fits := by
  have reserves : reserved w.book = some c.episode := by
    rw [fits.reserves, holds]
    rfl
  refine fits.notes rfl ⟨reserves, stable⟩ fits.holds rfl ?_ ?_ ?_ ?_
  · rcases to_ with ⟨-, rfl⟩ | ⟨-, rfl⟩ <;> rfl
  · intro taken
    rcases to_ with ⟨-, rfl⟩ | ⟨at_, rfl⟩
    · rfl
    · have owns := fits.owns taken
      rw [at_] at owns
      cases owns
  · rcases to_ with ⟨at_, rfl⟩ | ⟨at_, rfl⟩ <;> simp [goto, note, at_]
  · rcases to_ with ⟨-, rfl⟩ | ⟨-, rfl⟩ <;> trivial

theorem Fits.disowned (taken : w.owf = true) (at_ : w.pc = .yielding ∨ w.pc = .releasing) :
    (({ w with owf := false }.note .disowned).goto .deciding).Fits := by
  have unclaimed : w.claim = none := by
    apply fits.unclaimed
    rcases at_ with at_ | at_ <;> rw [at_] <;> rfl
  refine fits.notes rfl (fits.holds.trans taken) rfl (fits.unreserved unclaimed ▸ ?_) ?_ nofun ?_
    trivial
  · exact congrArg (Option.map PgClaim.episode) unclaimed.symm
  · exact congrArg Option.isSome unclaimed
  · rcases at_ with at_ | at_ <;> simp [goto, note, at_]

theorem Fits.asked (at_ : w.pc = .deciding) (first : w.allowed = false) (unlocked : w.depth = 0) :
    ((w.note .asked).goto .asking).Fits := by
  obtain ⟨free, unclaimed⟩ := fits.bare (by rw [at_]; decide)
  have unasked : Note.asked ∉ w.book := by
    rw [fits.asks]
    simp [at_, first]
  refine fits.notes rfl ⟨fits.holds.trans free, fits.unreserved unclaimed, unasked⟩ fits.holds
    fits.reserves ?_ ?_ ?_ unlocked
  · exact congrArg Option.isSome unclaimed
  · intro taken
    exact absurd (free.symm.trans taken) (by decide)
  · simp [goto, note]

theorem Fits.allows (at_ : w.pc = .asking) : ({ w with allowed := true }.goto .starting).Fits := by
  have free : w.owf = false := fits.unowned (by rw [at_]; rfl)
  refine fits.moves rfl rfl rfl ?_ ?_ ?_ trivial
  · rw [at_]
    rfl
  · intro taken
    exact absurd (free.symm.trans taken) (by decide)
  · simp [goto, at_]

end

end Worker

namespace Service

structure Kept (s : Service) : Prop where
  good : s.claims.Good
  sound : owning.Sound s.own
  fits : ∀ (i : Nat) (w : Worker), s.workers[i]? = some w → w.Fits
  held : ∀ (i : Nat) (w : Worker) (c : PgClaim), s.workers[i]? = some w → w.claim = some c →
    PgKey.of c.as c.page = w.key ∧ s.claims.Outstanding w.key c.episode.toNat ∧
      pgTransient c.prior.code = false
  apart : ∀ (i j : Nat) (w v : Worker) (c d : PgClaim), s.workers[i]? = some w →
    s.workers[j]? = some v → w.claim = some c → v.claim = some d → w.key = v.key → i = j
  moving : ∀ (i : Nat) (w : Worker), s.workers[i]? = some w → w.owf = true →
    s.channel = true ∧ ∃ e, s.own.tracked w.key = some e ∧ e.transit ≠ .none_
  alone : ∀ (i j : Nat) (w v : Worker), s.workers[i]? = some w → s.workers[j]? = some v →
    w.owf = true → v.owf = true → w.key = v.key → i = j
  owned : ∀ key e, s.own.tracked key = some e → e.transit ≠ .none_ →
    ∃ (i : Nat) (w : Worker), s.workers[i]? = some w ∧ w.owf = true ∧ w.key = key
  done : ∀ result book, (result, book) ∈ s.done → Justified Reason book ∧
    holding book = false ∧ reserved book = none

variable {s s' : Service} {i : Nat} {w w' : Worker}

variable {workers : List Worker} {j : Nat} {v : Worker}

theorem set_cases (found : (workers.set i w')[j]? = some v) :
    (j = i ∧ v = w') ∨ (j ≠ i ∧ workers[j]? = some v) := by
  by_cases same : j = i
  · subst same
    rw [List.getElem?_set, if_pos rfl, Option.ite_none_right_eq_some, Option.some.injEq] at found
    exact .inl ⟨rfl, found.2.symm⟩
  · rw [List.getElem?_set_ne (Ne.symm same)] at found
    exact .inr ⟨same, found⟩

theorem set_found (found : workers[i]? = some w) : (workers.set i w')[i]? = some w' := by
  rw [List.getElem?_set, if_pos rfl, if_pos (List.getElem?_eq_some_iff.mp found).1]

section

variable (kept : s.Kept)
include kept

theorem Kept.update (found : s.workers[i]? = some w) (own : OwnTable) (claims : World)
    (good : claims.Good) (sound : owning.Sound own) (fits : w'.Fits)
    (still : ∀ (j : Nat) (v : Worker) (c : PgClaim), j ≠ i → s.workers[j]? = some v →
      v.claim = some c → claims.Outstanding v.key c.episode.toNat)
    (held : ∀ c, w'.claim = some c → PgKey.of c.as c.page = w'.key ∧
      claims.Outstanding w'.key c.episode.toNat ∧ pgTransient c.prior.code = false)
    (apart : ∀ (j : Nat) (v : Worker) (c d : PgClaim), j ≠ i → s.workers[j]? = some v →
      v.claim = some c → w'.claim = some d → v.key ≠ w'.key)
    (moving : w'.owf = true → s.channel = true ∧
      ∃ e, own.tracked w'.key = some e ∧ e.transit ≠ .none_)
    (same : ∀ (j : Nat) (v : Worker), j ≠ i → s.workers[j]? = some v → v.owf = true →
      own.tracked v.key = s.own.tracked v.key)
    (alone : ∀ (j : Nat) (v : Worker), j ≠ i → s.workers[j]? = some v → v.owf = true →
      w'.owf = true → v.key ≠ w'.key)
    (owned : ∀ key e, own.tracked key = some e → e.transit ≠ .none_ →
      (w'.owf = true ∧ w'.key = key) ∨
        ∃ (j : Nat) (v : Worker), j ≠ i ∧ s.workers[j]? = some v ∧ v.owf = true ∧ v.key = key) :
    ({ s with own := own, claims := claims }.set i w').Kept where
  good := good
  sound := sound
  fits j v here := by
    rcases set_cases here with ⟨-, rfl⟩ | ⟨-, old⟩
    · exact fits
    · exact kept.fits j v old
  held j v c here holds := by
    rcases set_cases here with ⟨-, rfl⟩ | ⟨other, old⟩
    · exact held c holds
    · obtain ⟨key, -, stable⟩ := kept.held j v c old holds
      exact ⟨key, still j v c other old holds, stable⟩
  apart j k v u c d first second one two key := by
    rcases set_cases first with ⟨rfl, rfl⟩ | ⟨other, old⟩
    · rcases set_cases second with ⟨rfl, rfl⟩ | ⟨other', old'⟩
      · rfl
      · exact absurd key.symm (apart k u d c other' old' two one)
    · rcases set_cases second with ⟨rfl, rfl⟩ | ⟨-, old'⟩
      · exact absurd key (apart j v c d other old one two)
      · exact kept.apart j k v u c d old old' one two key
  moving j v here owns := by
    rcases set_cases here with ⟨-, rfl⟩ | ⟨other, old⟩
    · exact moving owns
    · obtain ⟨channel, e, tracked, busy⟩ := kept.moving j v old owns
      exact ⟨channel, e, (same j v other old owns).trans tracked, busy⟩
  alone j k v u first second one two key := by
    rcases set_cases first with ⟨rfl, rfl⟩ | ⟨other, old⟩
    · rcases set_cases second with ⟨rfl, rfl⟩ | ⟨other', old'⟩
      · rfl
      · exact absurd key.symm (alone k u other' old' two one)
    · rcases set_cases second with ⟨rfl, rfl⟩ | ⟨-, old'⟩
      · exact absurd key (alone j v other old one two)
      · exact kept.alone j k v u old old' one two key
  owned key e tracked busy := by
    rcases owned key e tracked busy with ⟨owns, named⟩ | ⟨j, v, other, here, owns, named⟩
    · exact ⟨i, w', set_found found, owns, named⟩
    · exact ⟨j, v, (List.getElem?_set_ne (Ne.symm other)).trans here, owns, named⟩
  done := kept.done

theorem Kept.still (here : s.workers[j]? = some v) (holds : v.claim = some c) :
    s.claims.Outstanding v.key c.episode.toNat := (kept.held j v c here holds).2.1

theorem Kept.owner (found : s.workers[i]? = some w) {key : PgKey} {e : OwnEnt}
    (tracked : s.own.tracked key = some e) (busy : e.transit ≠ .none_) :
    (w.owf = true ∧ w.key = key) ∨
      ∃ (j : Nat) (v : Worker), j ≠ i ∧ s.workers[j]? = some v ∧ v.owf = true ∧ v.key = key := by
  obtain ⟨j, v, here, owns, named⟩ := kept.owned key e tracked busy
  by_cases own : j = i
  · subst own
    rw [found, Option.some.injEq] at here
    subst here
    exact .inl ⟨owns, named⟩
  · exact .inr ⟨j, v, own, here, owns, named⟩

theorem Kept.goes (found : s.workers[i]? = some w) (fits : w'.Fits) (claim : w'.claim = w.claim)
    (owf : w'.owf = w.owf) (key : w'.key = w.key) : (s.set i w').Kept := by
  refine kept.update found s.own s.claims kept.good kept.sound fits
    (fun j v c _ => kept.still) ?_ ?_ ?_ (fun _ _ _ _ _ => rfl) ?_ ?_
  · intro c holds
    rw [key]
    exact kept.held i w c found (claim ▸ holds)
  · intro j v c d other here one two same
    exact other (kept.apart j i v w c d here found one (claim ▸ two) (same.trans key))
  · intro owns
    rw [key]
    exact kept.moving i w found (owf ▸ owns)
  · intro j v other here one two same
    exact other (kept.alone j i v w here found one (owf ▸ two) (same.trans key))
  · intro k e tracked busy
    rw [owf, key]
    exact kept.owner found tracked busy

theorem Kept.unchanged (found : s.workers[i]? = some w) {own : OwnTable} (sound : owning.Sound own)
    (same : own.tracked = s.own.tracked) (fits : w'.Fits) (free : w.owf = false)
    (claim : w'.claim = none) (owf : w'.owf = false) : ({ s with own := own }.set i w').Kept := by
  refine kept.update found own s.claims kept.good sound fits (fun j v c _ => kept.still) ?_ ?_ ?_
    (fun j v _ _ _ => congrFun same v.key) ?_ ?_
  · intro c holds
    rw [claim] at holds
    cases holds
  · intro j v c d _ _ _ two
    rw [claim] at two
    cases two
  · intro owns
    rw [owf] at owns
    cases owns
  · intro j v _ _ _ two
    rw [owf] at two
    cases two
  · intro key e tracked busy
    rw [same] at tracked
    rcases kept.owner found tracked busy with ⟨owns, -⟩ | other
    · rw [free] at owns
      cases owns
    · exact .inr other

theorem Kept.switches (found : s.workers[i]? = some w) (fits : w'.Fits) (free : w.owf = false)
    (claim : w'.claim = none) (owf : w'.owf = false) : (s.set i w').Kept :=
  kept.unchanged found kept.sound rfl fits free claim owf

theorem Kept.returns (found : s.workers[i]? = some w) (claim : w.claim = none) (owf : w.owf = false)
    (result : Int) : (s.return_ i w result).Kept := by
  have fits := kept.fits i w found
  have idle : (s.set i .idle).Kept := kept.switches found idle_fits owf rfl rfl
  refine ⟨idle.good, idle.sound, idle.fits, idle.held, idle.apart, idle.moving, idle.alone,
    idle.owned, ?_⟩
  intro other book member
  rcases List.mem_cons.mp member with same | old
  · cases same
    refine ⟨fits.justified, fits.holds.trans owf, ?_⟩
    rw [fits.reserves, claim]
    rfl
  · exact kept.done other book old

theorem Kept.dies : s.die.Kept :=
  ⟨kept.good, kept.sound, kept.fits, kept.held, kept.apart, kept.moving, kept.alone, kept.owned,
    kept.done⟩

theorem Kept.table {call : Call} {claims : World} {reply : Reply}
    (ran : s.claims.call call = .ok (claims, reply))
    (others : ∀ (i : Nat) (w : Worker) (c : PgClaim), s.workers[i]? = some w → w.claim = some c →
      ∀ d st, call = .finish (some d) st →
        ¬ (PgKey.of d.as d.page = w.key ∧ d.episode.toNat = c.episode.toNat)) :
    { s with claims := claims }.Kept := by
  obtain ⟨good, -, outstanding⟩ := other_call kept.good ran
  refine ⟨good, kept.sound, kept.fits, ?_, kept.apart, kept.moving, kept.alone, kept.owned,
    kept.done⟩
  intro j v c here holds
  obtain ⟨key, open_, stable⟩ := kept.held j v c here holds
  exact ⟨key, outstanding v.key c.episode.toNat open_ (others j v c here holds), stable⟩

theorem Kept.free {slot : PgSlot} {key : PgKey}
    (was : slot = slotOrFresh key (s.claims.table.tracked key))
    (stable : pgTransient slot.st.code = false) (here : s.workers[j]? = some v)
    (holds : v.claim = some c) : v.key ≠ key := by
  rintro rfl
  obtain ⟨taken, held, busy, -⟩ := (kept.good.outstanding_iff _ _).mp (kept.still here holds)
  rw [held] at was
  rw [was, slotOrFresh, busy] at stable
  cases stable

theorem Kept.claims (found : s.workers[i]? = some w) {mine : PgSt} {won lost : Pc}
    (wins : ∀ c : PgClaim, (({ w with claim := some c }.note (.claimed c.episode)).goto won).Fits)
    (loses : (w.goto lost).Fits) (ran : s.tryClaim i w mine won lost = some s') : s'.Kept := by
  unfold tryClaim at ran
  split at ran
  · cases ran
    exact kept.dies
  · next claims prior claim returned =>
    cases ran
    have called := call_cases kept.good.wf returned
    obtain ⟨good, -, outstanding⟩ := other_call kept.good returned
    cases called with
    | @claimed _ _ _ _ t' slot st was stable transient counted wf tracked =>
    have key : PgKey.of w.as.val (pageBase w.addr) = w.key := PgKey.of_base _ _
    have taken : t'.tracked w.key = some { slot with episode := slot.episode + 1, st := st } := by
      rw [tracked]
      exact update_self ..
    have mine := (good.outstanding_iff w.key (slot.episode + 1).toNat).mpr
      ⟨_, taken, transient, rfl⟩
    have fits := wins ⟨w.as, pageBase w.addr, slot.episode + 1, slot.st⟩
    refine kept.update found s.own _ good kept.sound fits ?_ ?_ ?_ (kept.moving i w found)
      (fun _ _ _ _ _ => rfl) ?_ ?_
    · intro j v c _ here holds
      refine outstanding _ _ (kept.still here holds) ?_
      intro d code wrong
      cases wrong
    · intro c holds
      cases holds
      exact ⟨key, mine, stable⟩
    · intro j v c d _ here holds _
      exact kept.free was stable here holds
    · intro j v other here one two same
      exact other (kept.alone j i v w here found one two same)
    · intro k e entry busy
      exact kept.owner found entry busy
  · next claims errno returned =>
    cases ran
    obtain ⟨good, -, outstanding⟩ := other_call kept.good returned
    have table : { s with claims := claims }.Kept := by
      refine kept.table returned ?_
      intro _ _ _ _ _ _ _ wrong
      cases wrong
    exact table.goes found loses rfl rfl rfl
  · cases ran

end

/-- A worker's finish of its claim is accepted: the process lives, the book notes the finish with a
stable state, and the transfer table has the page in that state and the claim finished. -/
structure Accepted (s : Service) (i : Nat) (w : Worker) (c : PgClaim) (s' : Service) : Prop where
  alive : s'.dead = s.dead
  noted : ∃ (w' : Worker) (st : PgSt) (slot : PgSlot), s'.workers[i]? = some w' ∧ w'.claim = none ∧
    w'.book = .finished c.episode st :: w.book ∧ (st = .invalid ∨ st = .shared ∨ st = .owned) ∧
    s'.claims.finished = (w.key, c.episode.toNat) :: s.claims.finished ∧
    s'.claims.table.tracked w.key = some { slot with st := st }

theorem Kept.finishes (kept : s.Kept) (found : s.workers[i]? = some w) (holds : w.claim = some c)
    (stable : st = .invalid ∨ st = .shared ∨ st = .owned)
    (fits : (({ w with claim := none }.note (.finished c.episode st)).goto pc).Fits) :
    (s.finish i w c st pc).Kept ∧ Accepted s i w c (s.finish i w c st pc) := by
  obtain ⟨key, open_, -⟩ := kept.held i w c found holds
  have named : PgSt.ofCode? st.code = some st := by
    rcases stable with same | same | same <;> rw [same] <;> rfl
  obtain ⟨claims, reply, returned, exact_, -⟩ := kept.good.finish_exact (some c) st.code
  obtain ⟨after, rfl⟩ := exact_.mpr ⟨c, st, rfl, named, stable, key ▸ open_⟩
  obtain ⟨good, -, outstanding⟩ := other_call kept.good returned
  simp only [finish, returned]
  refine ⟨?_, rfl, ?_⟩
  case refine_2 =>
    cases call_cases kept.good.wf returned with
    | @finished _ _ t' st' d slot completes wf tracked =>
    cases completes.1
    cases named.symm.trans completes.2.1
    rw [key] at tracked ⊢
    refine ⟨_, st, slot, set_found found, rfl, rfl, stable, rfl, ?_⟩
    show t'.tracked w.key = _
    rw [tracked, update_self]
  refine kept.update found s.own _ good kept.sound fits ?_ ?_ ?_ (kept.moving i w found)
    (fun _ _ _ _ _ => rfl) ?_ ?_
  · intro j v d other here mine
    refine outstanding _ _ (kept.still here mine) ?_
    rintro e code named ⟨same, -⟩
    cases named
    exact other (kept.apart j i v w d c here found mine holds (same.symm.trans key))
  · intro d none_
    cases none_
  · intro _ _ _ d _ _ _ none_
    cases none_
  · intro j v other here one two same
    exact other (kept.alone j i v w here found one two same)
  · intro k e entry busy
    exact kept.owner found entry busy

theorem Kept.ownfClaim (kept : s.Kept) (found : s.workers[i]? = some w) (at_ : w.pc = .starting) :
    (s.ownfClaim i w).Kept := by
  have fits := kept.fits i w found
  obtain ⟨free, unclaimed⟩ := fits.bare (by rw [at_]; decide)
  unfold Service.ownfClaim
  simp only
  split
  · exact kept.switches found (fits.unowns at_ (.inl rfl) w.generation) free rfl rfl
  next channel =>
  have open_ : s.channel = true := by rwa [Bool.not_eq_false] at channel
  obtain ⟨sound, begun⟩ := ownBegin_spec kept.sound w.addr w.as.property
    (show OwnTransit.toRemote ≠ .none_ by decide)
  split
  · next own answer =>
    rw [answer] at sound begun
    obtain ⟨idle, e, busy, tracked⟩ := begun
    -- The entry was idle, so no other worker holds it.
    have apart : ∀ (j : Nat) (v : Worker), s.workers[j]? = some v → v.owf = true →
        v.key ≠ w.key := by
      intro j v here owns same
      obtain ⟨-, e', entry, moving⟩ := kept.moving j v here owns
      rw [same] at entry
      exact moving (idle e' entry)
    refine kept.update found own s.claims kept.good sound (fits.owned at_)
      (fun j v c _ => kept.still) ?_ ?_ ?_ ?_ ?_ ?_
    · intro c none_
      cases none_
    · intro _ _ _ d _ _ _ none_
      cases none_
    · intro _
      refine ⟨open_, e, ?_, busy⟩
      change own.tracked w.key = some e
      rw [tracked]
      exact update_self ..
    · intro j v _ here owns
      rw [tracked]
      exact update_of_ne (apart j v here owns) ..
    · intro j v _ here owns _
      exact apart j v here owns
    · intro key e' entry moving
      by_cases same : key = w.key
      · exact .inl ⟨rfl, same.symm⟩
      · rw [tracked, show PgKey.of w.as.val w.addr = w.key from rfl,
          update_of_ne same] at entry
        rcases kept.owner found entry moving with ⟨owns, -⟩ | other
        · rw [free] at owns
          cases owns
        · exact .inr other
  · next own gen answer =>
    rw [answer] at sound begun
    exact kept.unchanged found sound begun.1 (fits.unowns at_ (.inr rfl) gen) free rfl rfl
  · next own answer =>
    rw [answer] at sound begun
    exact kept.unchanged found sound begun (fits.unowns at_ (.inl rfl) w.generation) free rfl rfl

theorem Kept.disowns (kept : s.Kept) (found : s.workers[i]? = some w) (taken : w.owf = true)
    (present : Bool) (at_ : w.pc = .yielding ∨ w.pc = .releasing) :
    ((s.ownfRelease w present).set i
      (({ w with owf := false }.note .disowned).goto .deciding)).Kept := by
  have fits := kept.fits i w found
  obtain ⟨open_, e, entry, busy⟩ := kept.moving i w found taken
  obtain ⟨sound, e', idle, tracked⟩ := ended_spec kept.sound w.addr w.as.property entry busy present
  rw [ownfRelease, if_neg (by rw [open_]; decide)]
  refine kept.update found _ s.claims kept.good sound (fits.disowned taken at_)
    (fun j v c _ => kept.still) ?_ ?_ ?_ ?_ ?_ ?_
  · intro c holds
    exact kept.held i w c found holds
  · intro j v c d other here one two same
    exact other (kept.apart j i v w c d here found one two same)
  · intro owns
    cases owns
  · intro j v other here owns
    rw [tracked]
    refine update_of_ne ?_ ..
    intro same
    exact other (kept.alone j i v w here found owns taken same)
  · intro j v _ _ _ owns
    cases owns
  · intro key found' entry' moving
    by_cases same : key = w.key
    · subst same
      rw [tracked, show PgKey.of w.as.val w.addr = w.key from rfl, update_self,
        Option.some.injEq] at entry'
      rw [← entry'] at moving
      exact absurd idle moving
    · rw [tracked, show PgKey.of w.as.val w.addr = w.key from rfl,
        update_of_ne same] at entry'
      rcases kept.owner found entry' moving with ⟨-, named⟩ | other
      · exact absurd named.symm same
      · exact .inr other

theorem Kept.yields (kept : s.Kept) (found : s.workers[i]? = some w) (at_ : w.pc = .yielding) :
    (s.yield_ i w).Kept := by
  have fits := kept.fits i w found
  have unclaimed : w.claim = none := fits.unclaimed (by rw [at_]; rfl)
  unfold yield_
  split
  · next taken =>
    have released := kept.disowns found taken false (.inl at_)
    have here : ((s.ownfRelease w false).set i
        (({ w with owf := false }.note .disowned).goto .deciding)).workers[i]? =
          some (({ w with owf := false }.note .disowned).goto .deciding) := by
      refine @set_found i w _ _ ?_
      rw [← found, ownfRelease]
      split <;> rfl
    have returned := released.returns here unclaimed rfl 1
    simp only [return_, Service.set, List.set_set] at returned
    exact returned
  · next taken =>
    have free : w.owf = false := by rwa [Bool.not_eq_true] at taken
    exact kept.returns found unclaimed free 1

theorem Kept.releases (kept : s.Kept) (found : s.workers[i]? = some w) (at_ : w.pc = .releasing) :
    (s.release i w).Kept := by
  have fits := kept.fits i w found
  unfold release
  split
  · next taken => exact kept.disowns found taken w.present (.inr at_)
  · next taken =>
    have free : w.owf = false := by rwa [Bool.not_eq_true] at taken
    refine kept.goes found (fits.moves rfl rfl rfl ?_ ?_ ?_ trivial) rfl rfl rfl
    · rw [at_]
      rfl
    · rw [free]
      nofun
    · simp [Worker.goto, at_]

theorem settled_stable (w : Worker) :
    settled w = .invalid ∨ settled w = .shared ∨ settled w = .owned := by
  unfold settled
  split
  · split
    · exact .inr (.inr rfl)
    · exact .inr (.inl rfl)
  · exact .inl rfl

theorem Kept.answers (kept : s.Kept) (found : s.workers[i]? = some w) (at_ : w.pc = .answering)
    (holds : w.claim = some c) (left : Left) : (s.answer i w c left).Kept := by
  have fits := kept.fits i w found
  obtain ⟨-, -, stable⟩ := kept.held i w c found holds
  refine kept.goes found (fits.goes at_ rfl (by decide) ?_) rfl rfl rfl
  cases left with
  | invalid => exact .inl rfl
  | shared => exact .inr (.inl rfl)
  | prior => exact (stable_iff c.prior).mp stable

theorem Kept.acts (kept : s.Kept) (found : s.workers[i]? = some w) {act : Act}
    (ran : s.actNext i w act = some s') : s'.Kept := by
  have fits := kept.fits i w found
  simp only [actNext] at ran
  split at ran
  · next vec as addr err at_ =>
    cases ran
    have free : w.owf = false := fits.unowned (by rw [at_]; rfl)
    unfold enter
    simp only
    split
    · exact kept.switches found (Worker.reports_fits as addr err) free rfl rfl
    · exact kept.switches found (Worker.enters_fits as addr err) free rfl rfl
  · next at_ =>
    cases ran
    exact kept.ownfClaim found at_
  · next at_ =>
    cases ran
    obtain ⟨free, unclaimed⟩ := fits.bare (by rw [at_]; decide)
    unfold ownfWait
    split
    · exact kept.returns found unclaimed free 1
    · exact kept.goes found (fits.goes at_ rfl (by decide) trivial) rfl rfl rfl
  · next at_ =>
    refine kept.claims found (fits.claimed at_) ?_ ran
    exact fits.goes at_ rfl (by decide) trivial
  · next at_ =>
    cases ran
    exact kept.yields found at_
  · next at_ =>
    cases ran
    exact kept.goes found (fits.served at_ _ _) rfl rfl rfl
  · next at_ =>
    cases ran
    unfold flush
    split
    · exact kept.goes found (fits.goes at_ rfl (by decide) trivial) rfl rfl rfl
    · exact kept.dies
  · next at_ =>
    cases ran
    exact kept.goes found (fits.goes at_ rfl (by decide) trivial) rfl rfl rfl
  · next at_ =>
    obtain ⟨c, holds, rfl⟩ := Option.map_eq_some_iff.mp ran
    exact (kept.finishes found holds (settled_stable w)
      (fits.finished holds (settled_stable w) (.inl ⟨at_, rfl⟩))).1
  · next at_ =>
    cases ran
    exact kept.releases found at_
  · next at_ =>
    cases ran
    obtain ⟨free, unclaimed⟩ := fits.bare (by rw [at_]; decide)
    unfold decide_
    split
    · exact kept.returns found unclaimed free _
    split
    · exact kept.dies
    next first =>
    split
    · exact kept.dies
    next unlocked =>
    rw [Bool.not_eq_true] at first
    rw [ne_eq, Decidable.not_not] at unlocked
    exact kept.goes found (fits.asked at_ first unlocked) rfl rfl rfl
  · next at_ =>
    cases ran
    obtain ⟨free, unclaimed⟩ := fits.bare (by rw [at_]; decide)
    unfold ask
    split
    · exact kept.returns found unclaimed free _
    · exact kept.goes found (fits.allows at_) rfl rfl rfl
  · next at_ =>
    cases ran
    obtain ⟨free, unclaimed⟩ := fits.bare (by rw [at_]; decide)
    exact kept.returns found unclaimed free _
  · next as addr at_ =>
    cases ran
    have free : w.owf = false := fits.unowned (by rw [at_]; rfl)
    exact kept.switches found (Worker.requests_fits as addr) free rfl rfl
  · next at_ =>
    refine kept.claims found (fits.requested at_) ?_ ran
    exact fits.goes at_ rfl (by decide) trivial
  · next at_ =>
    obtain ⟨c, holds, rfl⟩ := Option.map_eq_some_iff.mp ran
    exact kept.answers found at_ holds _
  · next at_ =>
    obtain ⟨c, holds, rfl⟩ := Option.map_eq_some_iff.mp ran
    have stable := fits.place
    simp only [Worker.Place, at_] at stable
    exact (kept.finishes found holds stable
      (fits.finished holds stable (.inr ⟨at_, rfl⟩))).1
  · next at_ =>
    cases ran
    obtain ⟨free, unclaimed⟩ := fits.bare (by rw [at_]; decide)
    exact kept.returns found unclaimed free _
  · cases ran

theorem Kept.step (kept : s.Kept) {label : Label} (step : Step s label s') : s'.Kept := by
  simp only [Computed, next] at step
  split at step
  · cases step
  split at step
  · obtain ⟨w, found, ran⟩ := Option.bind_eq_some_iff.mp step
    exact kept.acts found ran
  · next call =>
    obtain ⟨allowed, ran⟩ := Option.ite_none_right_eq_some.mp step
    obtain ⟨claims, stepped, rfl⟩ := Option.map_eq_some_iff.mp ran
    obtain ⟨reply, returned⟩ := step_returned stepped
    refine kept.table returned ?_
    rintro j v c here holds d st rfl ⟨key, episode⟩
    have apart := List.all_eq_true.mp allowed v (List.mem_of_getElem? here)
    simp only [holds] at apart
    rw [key, UInt64.toNat_inj.mp episode] at apart
    simp at apart

theorem Kept.accepted (kept : s.Kept) (found : s.workers[i]? = some w) {act : Act}
    (ends : act = .finish ∨ act = .close) (ran : s.actNext i w act = some s') :
    ∃ c, w.claim = some c ∧ Accepted s i w c s' := by
  have fits := kept.fits i w found
  rcases ends with rfl | rfl
  · have at_ : w.pc = .finishing := by
      cases pc : w.pc <;> simp [actNext, pc] at ran ⊢
    simp only [actNext, at_] at ran
    obtain ⟨c, holds, rfl⟩ := Option.map_eq_some_iff.mp ran
    exact ⟨c, holds, (kept.finishes found holds (settled_stable w)
      (fits.finished holds (settled_stable w) (.inl ⟨at_, rfl⟩))).2⟩
  · have at_ : w.pc = .closing := by
      cases pc : w.pc <;> simp [actNext, pc] at ran ⊢
    simp only [actNext, at_] at ran
    obtain ⟨c, holds, rfl⟩ := Option.map_eq_some_iff.mp ran
    have stable := fits.place
    simp only [Worker.Place, at_] at stable
    exact ⟨c, holds, (kept.finishes found holds stable
      (fits.finished holds stable (.inr ⟨at_, rfl⟩))).2⟩

theorem acts_others {act : Act} (other : j ≠ i) (ran : s.actNext i w act = some s') :
    s'.workers[j]? = s.workers[j]? := by
  have set_other (s : Service) (v : Worker) : (s.set i v).workers[j]? = s.workers[j]? :=
    List.getElem?_set_ne (Ne.symm other)
  unfold actNext at ran
  split at ran
  all_goals
    grind [enter, ownfClaim, ownfWait, tryClaim, yield_, serve, flush, look, finish, release,
      decide_, ask, request, answer, return_, ownfRelease, die, Option.map_eq_some_iff, cases Left]

/-- A worker keeps its claim until its finish of it is accepted. -/
theorem Kept.keeps (kept : s.Kept) {label : Label} (step : Step s label s')
    (found : s.workers[i]? = some w) (holds : w.claim = some c) (alive : s'.dead = false) :
    (∃ w', s'.workers[i]? = some w' ∧ w'.claim = some c ∧ w'.key = w.key) ∨
      Accepted s i w c s' := by
  simp only [Computed, next] at step
  split at step
  · cases step
  split at step
  · next _ j act =>
    obtain ⟨v, here, ran⟩ := Option.bind_eq_some_iff.mp step
    by_cases own : j = i
    · subst own
      cases found.symm.trans here
      by_cases ends : act = .finish ∨ act = .close
      · obtain ⟨d, same, accepted⟩ := kept.accepted found ends ran
        cases holds.symm.trans same
        exact .inr accepted
      · have reserves : w.pc.reserves = true := by
          rw [← (kept.fits j w found).claims, holds]
          rfl
        -- Between its claim and its finish a worker only moves on.
        unfold actNext at ran
        split at ran
        all_goals
          grind [Pc.reserves, serve, flush, look, answer, die, set_found, Worker.key, Worker.goto,
            Worker.note, Service.set, Option.map_eq_some_iff, cases Left]
    · rw [← acts_others (Ne.symm own) ran] at found
      exact .inl ⟨w, found, holds, rfl⟩
  · obtain ⟨-, ran⟩ := Option.ite_none_right_eq_some.mp step
    obtain ⟨claims, -, rfl⟩ := Option.map_eq_some_iff.mp ran
    exact .inl ⟨w, found, holds, rfl⟩

theorem Kept.start (channel : Bool) (workers : Nat) : (start channel workers).Kept := by
  have idle : ∀ (j : Nat) (v : Worker), (List.replicate workers Worker.idle)[j]? = some v →
      v = Worker.idle := fun j v here => List.eq_of_mem_replicate (List.mem_of_getElem? here)
  constructor
  · exact start_good
  · exact start_sound
  · intro j v here
    rw [idle j v here]
    exact idle_fits
  · intro j v c here holds
    rw [idle j v here] at holds
    cases holds
  · intro j k v u c d here _ holds
    rw [idle j v here] at holds
    cases holds
  · intro j v here owns
    rw [idle j v here] at owns
    cases owns
  · intro j k v u here _ owns
    rw [idle j v here] at owns
    cases owns
  · intro key e tracked
    rw [show (Service.start channel workers).own = OwnTable.start from rfl,
      start_tracked] at tracked
    cases tracked
  · intro result book member
    cases member

/-! The contract. -/

/-- What the two reservations guarantee the workers of the service. -/
structure Excludes (s : Service) : Prop where
  /-- At most one worker is between its claim of a page and the matching finish, and its claim is
  the outstanding one. -/
  exclusive : ∀ (i j : Nat) (w v : Worker) (c d : PgClaim), s.workers[i]? = some w →
    s.workers[j]? = some v → w.claim = some c → v.claim = some d → w.key = v.key → i = j
  /-- The claim a worker holds is outstanding in the transfer table. -/
  outstanding : ∀ w ∈ s.workers, ∀ c, w.claim = some c →
    s.claims.Outstanding w.key c.episode.toNat
  /-- A page is served and answered under a claim. -/
  inside : ∀ w ∈ s.workers, (w.pc = .serving ∨ w.pc = .answering) → w.claim.isSome = true
  /-- Neither reservation and no coherence lock is held while the source is asked about a page
  fault. -/
  asking : ∀ w ∈ s.workers, w.pc = .asking → w.claim = none ∧ w.owf = false ∧ w.depth = 0
  /-- The entries of a call's book are justified by those before them: each claim of either kind is
  released once and before the next, a page claim with a stable state, the source is asked once and
  with both released, and the service after its answer runs under a claim made after it. -/
  books : ∀ w ∈ s.workers, Justified Reason w.book ∧ holding w.book = w.owf ∧
    reserved w.book = w.claim.map PgClaim.episode
  /-- A call that has returned has released both. -/
  returned : ∀ result book, (result, book) ∈ s.done → Justified Reason book ∧
    holding book = false ∧ reserved book = none
  /-- No finish is refused. -/
  finishes : ∀ i act s', (act = .finish ∨ act = .close) → Step s (.worker i act) s' →
    s'.dead = false
  /-- A worker gives a claim up in one way: the transfer table accepts its finish, once, and the
  book notes that. -/
  finished : ∀ label s' (i : Nat) (w : Worker) (c : PgClaim), Step s label s' →
    s.workers[i]? = some w → w.claim = some c → s'.dead = false →
    (∃ w', s'.workers[i]? = some w' ∧ w'.claim = some c ∧ w'.key = w.key) ∨
      (w.key, c.episode.toNat) ∉ s.claims.finished ∧ Accepted s i w c s'
  /-- An ownership entry in transit has a worker that will release it. -/
  transit : ∀ key e, s.own.tracked key = some e → e.transit ≠ .none_ →
    ∃ w ∈ s.workers, w.key = key ∧ w.owf = true ∧ w.pc ≠ .idle

end Service

end Vmctx.Ownership
