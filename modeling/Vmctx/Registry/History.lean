import Vmctx.Registry.Records
import Vmctx.System.Around
import Vmctx.System.Run
/-!
# What a record has been

A record's bindings only grow, its snapshots never go back, and a snapshot of an ended task is the
last word. That rests on the rule of `source_record_cache` alone: an answer is taken only when it is
not older than what is known, whatever the order of the queries. The descriptor is closed by the put
of the last reference, which leaves a single caller that may do so.
-/

namespace Vmctx.Registry

open Vmctx.System List

/-! ## The invariant of a record -/

/-- A snapshot is not newer than another; after the end of the task they are the same. -/
structure Returned.Before (older newer : Returned) : Prop where
  mm : older.info.mmIdentity ≤ newer.info.mmIdentity
  epoch : older.epoch ≤ newer.epoch
  ended : older.info.ended = true → newer = older

/-- Bindings, newest first, are numbered from one and name ever larger address spaces. -/
def Numbered : List Binding → Prop
  | [] => True
  | b :: older =>
    b.epoch = older.length + 1 ∧ b.mm ≠ 0 ∧ (∀ o ∈ older, o.mm < b.mm) ∧ Numbered older

def Activity.last : Activity → Bool
  | .asksLast | .closes _ | .publishes _ => true
  | .asks | .caches _ | .releases => false

def Activity.unclosed : Activity → Bool
  | .asksLast | .closes _ => true
  | .publishes _ | .asks | .caches _ | .releases => false

structure Record.Good (r : Record) : Prop where
  numbered : Numbered r.bindings
  newest : r.info.mmIdentity = (r.bindings.head?.map (·.mm)).getD 0
  bounded : r.refs ≤ uintMax
  unheld : r.retiring = true → r.refs = 0
  last : r.pending.countP Activity.last = if r.retiring then 1 else 0
  closing : r.closed + r.pending.countP Activity.unclosed + (if r.refs = 0 then 0 else 1) = 1
  opened : r.opened = true ↔ r.closed = 0
  claimed : r.claims = if r.connectionClaimed then 1 else 0
  ordered : r.returned.Pairwise fun newer older => older.Before newer
  behind : ∀ x ∈ r.returned, x.Before r.current

/-- A record changes only forward. -/
structure Record.Advances (r r' : Record) : Prop where
  /-- It keeps its descriptor. -/
  descriptor : r'.descriptor = r.descriptor
  /-- Bindings are only added. -/
  bindings : r.bindings <:+ r'.bindings
  /-- What a snapshot would return does not go back. -/
  current : r.current.Before r'.current
  /-- The connection stays claimed. -/
  claimed : r.connectionClaimed = true → r'.connectionClaimed = true
  /-- A closed descriptor stays so. -/
  closed : r.closed ≤ r'.closed
  /-- Snapshots are only added. -/
  returned : r.returned <:+ r'.returned

variable {r r' r'' : Record} {info : Info} {memory : Bool}

theorem Returned.Before.refl (x : Returned) : x.Before x where
  mm := Nat.le_refl _
  epoch := Nat.le_refl _
  ended _ := rfl

theorem Returned.Before.trans {x y z : Returned} (first : x.Before y) (second : y.Before z) :
    x.Before z where
  mm := Nat.le_trans first.mm second.mm
  epoch := Nat.le_trans first.epoch second.epoch
  ended finished := by
    have same := first.ended finished
    exact (second.ended (same ▸ finished)).trans same

theorem Record.Advances.refl (r : Record) : r.Advances r where
  descriptor := rfl
  bindings := suffix_refl _
  current := .refl _
  claimed := id
  closed := Nat.le_refl _
  returned := suffix_refl _

theorem Record.Advances.trans (first : r.Advances r') (second : r'.Advances r'') :
    r.Advances r'' where
  descriptor := second.descriptor.trans first.descriptor
  bindings := first.bindings.trans second.bindings
  current := first.current.trans second.current
  claimed flag := second.claimed (first.claimed flag)
  closed := Nat.le_trans first.closed second.closed
  returned := first.returned.trans second.returned

/-! ## The rule of the cache -/

structure Record.Caches (r : Record) (info : Info) (bindings : List Binding) : Prop where
  numbered : Numbered bindings
  newest : info.mmIdentity = (bindings.head?.map (·.mm)).getD 0
  grows : r.bindings <:+ bindings
  current : r.current.Before { r with info, bindings }.current

theorem Record.Caches.refl (numbered : Numbered r.bindings)
    (newest : r.info.mmIdentity = (r.bindings.head?.map (·.mm)).getD 0) :
    r.Caches r.info r.bindings where
  numbered := numbered
  newest := newest
  grows := suffix_refl _
  current := .refl _

theorem Numbered.bound {b : Binding} {older : List Binding} {mm : Nat}
    (numbered : Numbered (b :: older)) (newer : b.mm < mm) : ∀ o ∈ b :: older, o.mm < mm := by
  intro o here
  obtain rfl | old := mem_cons.mp here
  · exact newer
  · exact Nat.lt_trans (numbered.2.2.1 o old) newer

theorem cache_caches (numbered : Numbered r.bindings)
    (newest : r.info.mmIdentity = (r.bindings.head?.map (·.mm)).getD 0)
    (cached : r.cache info memory = .ok r') :
    ∃ info bindings, r' = { r with info, bindings } ∧ r.Caches info bindings := by
  have same : ∃ info bindings, r = { r with info, bindings } ∧ r.Caches info bindings :=
    ⟨r.info, r.bindings, rfl, .refl numbered newest⟩
  simp only [Record.cache] at cached
  split at cached
  · cases cached
    exact same
  case isFalse live =>
    have live : r.info.ended = false := by simpa using live
    have unended {P : Prop} (finished : r.info.ended = true) : P :=
      absurd (live.symm.trans finished) (by decide)
    split at cached
    · split at cached
      · cases cached
      · cases cached
        exact same
    case isFalse fresh =>
      have fresh : r.info.mmIdentity ≤ info.mmIdentity := Nat.le_of_not_lt fresh
      split at cached
      case isTrue none =>
        cases cached
        have zero : r.info.mmIdentity = 0 := Nat.le_zero.mp (none ▸ fresh)
        refine ⟨info, r.bindings, rfl, numbered, ?_, suffix_refl _,
          fresh, Nat.le_refl _, unended⟩
        rw [← newest, zero, none]
      case isFalse real =>
        split at cached
        · cases cached
        case h_2 bound binds =>
          cases cached
          simp only [Record.bind] at binds
          split at binds
          case h_1 empty =>
            split at binds
            · cases binds
            · cases binds
              have first : Numbered [⟨info.mmIdentity, 1⟩] :=
                ⟨rfl, real, nofun, trivial⟩
              refine ⟨info, _, rfl, first, rfl, empty ▸ nil_suffix, fresh, ?_, unended⟩
              simp [Record.current, Record.epoch, empty]
          case h_2 b older bindings =>
            rw [bindings] at numbered newest
            have known : r.info.mmIdentity = b.mm := newest
            split at binds
            case isTrue again =>
              cases binds
              refine ⟨info, r.bindings, rfl, bindings ▸ numbered, ?_, suffix_refl _,
                fresh, Nat.le_refl _, unended⟩
              simp [bindings, again]
            case isFalse other =>
              have newer : b.mm < info.mmIdentity := by omega
              split at binds
              · cases binds
              · split at binds
                · cases binds
                · cases binds
                  have epoch : b.epoch = older.length + 1 := numbered.1
                  have next : Numbered (⟨info.mmIdentity, b.epoch + 1⟩ :: b :: older) :=
                    ⟨congrArg (· + 1) epoch, real, numbered.bound newer, numbered⟩
                  refine ⟨info, _, rfl, bindings ▸ next, rfl, suffix_cons .., fresh, ?_,
                    unended⟩
                  simp [Record.current, Record.epoch, bindings]

/-! ## Steps of a record -/

def Record.Steps (r r' : Record) : Prop := r'.Good ∧ r.Advances r'

theorem Record.Good.cache (good : r.Good) (cached : r.cache info memory = .ok r') : r.Steps r' := by
  obtain ⟨info, bindings, rfl, caches⟩ := cache_caches good.numbered good.newest cached
  refine ⟨{ good with
    numbered := caches.numbered
    newest := caches.newest
    behind := fun x here => (good.behind x here).trans caches.current }, ?_⟩
  exact { Record.Advances.refl r with
    bindings := caches.grows
    current := caches.current }

theorem Record.Good.returns (good : r.Good) :
    r.Steps { r with returned := r.current :: r.returned } := by
  refine ⟨{ good with ordered := ?_, behind := ?_ }, ?_⟩
  · exact pairwise_cons.mpr ⟨good.behind, good.ordered⟩
  · intro x here
    obtain rfl | old := mem_cons.mp here
    · exact .refl _
    · exact good.behind x old
  · exact { Record.Advances.refl r with returned := suffix_cons .. }

theorem Record.Steps.trans (first : r.Steps r') (second : r'.Steps r'') : r.Steps r'' :=
  ⟨second.1, first.2.trans second.2⟩

variable {a : Activity} {i descriptor : Nat} {answer : Except Errno Info}

section

variable (good : r.Good)
include good

theorem Record.Good.goesOn {b : Activity} (here : r.pending[i]? = some a) (last : a.last = b.last)
    (unclosed : a.unclosed = b.unclosed) : r.Steps { r with pending := r.pending.set i b } := by
  have lasts := countP_set Activity.last here b
  have closing := countP_set Activity.unclosed here b
  rw [last] at lasts
  rw [unclosed] at closing
  refine ⟨{ good with last := ?_, closing := ?_ }, { Record.Advances.refl r with }⟩
  · exact (Nat.add_right_cancel lasts).trans good.last
  · rw [Nat.add_right_cancel closing]
    exact good.closing

theorem Record.Good.drops (here : r.pending[i]? = some a) (last : a.last = false)
    (unclosed : a.unclosed = false) : r.Steps { r with pending := r.pending.eraseIdx i } := by
  have lasts := countP_eraseIdx Activity.last here
  have closing := countP_eraseIdx Activity.unclosed here
  rw [last, if_neg Bool.false_ne_true] at lasts
  rw [unclosed, if_neg Bool.false_ne_true] at closing
  refine ⟨{ good with last := ?_, closing := ?_ }, { Record.Advances.refl r with }⟩
  · exact lasts.trans good.last
  · rw [show (r.pending.eraseIdx i).countP Activity.unclosed = _ from closing]
    exact good.closing

theorem Record.Good.get (got : r.get = .ok r') : r.Steps r' := by
  simp only [Record.get] at got
  split at got
  · cases got
  case isFalse held =>
    have ⟨refs, live⟩ := not_or.mp held
    split at got
    · cases got
    case isFalse room =>
      cases got
      have closing := good.closing
      rw [if_neg refs] at closing
      refine ⟨{ good with bounded := ?_, unheld := ?_, closing := ?_ },
        { Record.Advances.refl r with }⟩
      · exact Nat.lt_of_le_of_ne good.bounded room
      · exact fun flag => absurd flag live
      · simpa using closing

theorem Record.Good.claim (done : r.claim = .ok r') : r.Steps r' := by
  simp only [Record.claim] at done
  split at done
  · cases done
  · split at done
    · cases done
    case isFalse unclaimed =>
      cases done
      have none := good.claimed
      rw [if_neg unclaimed] at none
      refine ⟨{ good with claimed := ?_ }, { Record.Advances.refl r with claimed := ?_ }⟩
      · simp [none]
      · exact fun _ => rfl

theorem Record.Good.put (done : r.put = some r') : r.Steps r' := by
  simp only [Record.put] at done
  split at done
  · cases done
  case isFalse held =>
    have ⟨refs, live⟩ := not_or.mp held
    have closing := good.closing
    have last := good.last
    rw [if_neg refs] at closing
    rw [if_neg live] at last
    split at done
    case isTrue more =>
      cases done
      refine ⟨{ good with bounded := ?_, unheld := ?_, closing := ?_ },
        { Record.Advances.refl r with }⟩
      · exact Nat.le_trans (Nat.sub_le ..) good.bounded
      · exact fun flag => absurd flag live
      · simpa [more] using closing
    · cases done
      refine ⟨{ good with bounded := ?_, unheld := ?_, last := ?_, closing := ?_ },
        { Record.Advances.refl r with }⟩
      · exact Nat.zero_le _
      · exact fun _ => rfl
      · exact (countP_cons_of_pos rfl).trans (congrArg (· + 1) last)
      · rw [countP_cons_of_pos rfl]
        exact closing

theorem Record.Good.closes (here : r.pending[i]? = some (.closes answer)) :
    r.Steps { r with pending := r.pending.set i (.publishes answer) }.close := by
  have lasts := countP_set Activity.last here (.publishes answer)
  have closing := countP_set Activity.unclosed here (.publishes answer)
  have before := good.closing
  simp only [Activity.unclosed, if_true, Bool.false_eq_true, if_false] at closing
  have zero : r.closed = 0 := by omega
  have opened : r.opened = true := good.opened.mpr zero
  simp only [Record.close, opened, if_true, zero]
  refine ⟨{ good with last := ?_, closing := ?_, opened := ?_ },
    { Record.Advances.refl r with closed := ?_ }⟩
  · exact (Nat.add_right_cancel lasts).trans good.last
  · show 1 + (r.pending.set i _).countP Activity.unclosed + (if r.refs = 0 then 0 else 1) = 1
    omega
  · simp
  · show r.closed ≤ 1
    omega

theorem Record.Good.retires {i : Nat} {answer : Except Errno Info}
    (here : r.pending[i]? = some (.publishes answer)) :
    r.Steps ({ r with pending := r.pending.eraseIdx i }.retire answer memory) := by
  have lasts := countP_eraseIdx Activity.last here
  have closing := countP_eraseIdx Activity.unclosed here
  simp only [Activity.last, Activity.unclosed, if_true, Bool.false_eq_true, if_false]
    at lasts closing
  have all := good.last
  have retiring : r.retiring = true := by
    by_cases flag : r.retiring = true
    · exact flag
    · rw [if_neg flag] at all
      omega
  rw [if_pos retiring] at all
  have freed (errno : Option Errno) : r.Steps { r with
      pending := r.pending.eraseIdx i, infoError := errno, retiring := false } := by
    refine ⟨{ good with unheld := ?_, last := ?_, closing := ?_ },
      { Record.Advances.refl r with }⟩
    · exact nofun
    · show (r.pending.eraseIdx i).countP Activity.last = 0
      omega
    · rw [show (r.pending.eraseIdx i).countP Activity.unclosed = _ from closing]
      exact good.closing
  simp only [Record.retire]
  split
  · exact freed _
  case h_2 info =>
    split
    · exact freed _
    case h_2 cached caches =>
      obtain ⟨info, bindings, rfl, right⟩ := cache_caches
        (r := { r with pending := r.pending.eraseIdx i }) good.numbered good.newest caches
      have now := (freed none).1
      refine ⟨{ now with
        numbered := right.numbered
        newest := right.newest
        behind := fun x here => (good.behind x here).trans right.current }, ?_⟩
      exact { Record.Advances.refl r with
        bindings := right.grows
        current := right.current }

theorem Record.Good.publish : r.Steps (r.publish info memory) := by
  simp only [Record.publish]
  split
  · exact ⟨good, .refl r⟩
  case h_2 cached caches =>
    have first := good.cache caches
    exact first.trans first.1.returns

theorem Record.Good.terminal : r.Steps r.terminal := by
  simp only [Record.terminal]
  split
  · exact ⟨good, .refl r⟩
  · exact good.returns

theorem Record.Good.proceed (done : r.proceed i answer memory = some r') : r.Steps r' := by
  simp only [Record.proceed] at done
  split at done
  · cases done
  case h_2 here =>
    split at done
    · cases done
      exact good.goesOn here rfl rfl
    · cases done
      exact good.goesOn here rfl rfl
  case h_3 info here =>
    cases done
    have first := good.goesOn here (b := .releases) rfl rfl
    exact first.trans first.1.publish
  case h_4 here =>
    have first := good.drops here rfl rfl
    exact first.trans (first.1.put done)
  case h_5 here =>
    cases done
    exact good.goesOn here rfl rfl
  case h_6 answer here =>
    cases done
    exact good.closes here
  case h_7 answer here =>
    cases done
    exact good.retires here

end

/-! ## Steps of the registry -/

def Catalog.Good (s : Catalog) : Prop := ∀ r ∈ s.records, r.Good

/-- Every record of one registry is there in another, as it was or further on. -/
def Catalog.Advances (s s' : Catalog) : Prop :=
  ∀ (i : Nat) (r : Record), s.records[i]? = some r →
    ∃ r', s'.records[i]? = some r' ∧ r.Advances r'

variable {s s' : Catalog} {id : Nat}

theorem Catalog.find_some (found : s.find id = some r) : s.records[id - 1]? = some r := by
  simp only [Catalog.find] at found
  split at found
  · cases found
  · exact found

theorem Catalog.Good.set (good : s.Good) (found : s.find id = some r)
    (steps : r.Good → r.Steps r') : (s.set id r').Good ∧ s.Advances (s.set id r') := by
  have here := Catalog.find_some found
  obtain ⟨bound, -⟩ := List.getElem?_eq_some_iff.mp here
  have steps := steps (good r (mem_of_getElem? here))
  refine ⟨fun x member => ?_, fun i x there => ?_⟩
  · obtain old | rfl := mem_or_eq_of_mem_set member
    · exact good x old
    · exact steps.1
  · by_cases same : i = id - 1
    · cases same
      cases here.symm.trans there
      exact ⟨r', by simp [Catalog.set, bound], steps.2⟩
    · refine ⟨x, ?_, .refl x⟩
      simp only [Catalog.set]
      rw [List.getElem?_set_ne (Ne.symm same)]
      exact there

theorem Catalog.Advances.same (records : s'.records = s.records) : s.Advances s' :=
  fun _ r here => ⟨r, records ▸ here, .refl r⟩

theorem Catalog.Advances.find (advances : s.Advances s') (found : s.find id = some r) :
    ∃ r', s'.find id = some r' ∧ r.Advances r' := by
  obtain ⟨r', there, further⟩ := advances (id - 1) r (Catalog.find_some found)
  refine ⟨r', ?_, further⟩
  simp only [Catalog.find] at found ⊢
  split at found
  · cases found
  case isFalse real =>
    rw [if_neg real]
    exact there

theorem added_good (cached : (Record.blank descriptor).cache info memory = .ok r) :
    { r with refs := 1 }.Good := by
  obtain ⟨info, bindings, rfl, caches⟩ := cache_caches (by trivial) rfl cached
  exact {
    numbered := caches.numbered
    newest := caches.newest
    bounded := (by decide : 1 ≤ uintMax)
    unheld := nofun
    last := rfl
    closing := rfl
    opened := ⟨fun _ => rfl, fun _ => rfl⟩
    claimed := rfl
    ordered := List.Pairwise.nil
    behind := nofun }

theorem Catalog.Good.add {record grown binding : Bool} (good : s.Good) :
    (s.add descriptor answer record grown binding).1.Good ∧
      s.Advances (s.add descriptor answer record grown binding).1 := by
  have same (capacity : Nat) : Catalog.Good { s with capacity } ∧
      s.Advances { s with capacity } :=
    ⟨good, .same rfl⟩
  simp only [Catalog.add]
  split
  · exact ⟨good, .same rfl⟩
  · split
    · exact ⟨good, .same rfl⟩
    · split
      · exact ⟨good, .same rfl⟩
      · split
        · exact same _
        case h_2 cached caches =>
          refine ⟨fun r member => ?_, fun i r here => ⟨r, ?_, .refl r⟩⟩
          · obtain old | new := mem_append.mp member
            · exact good r old
            · cases mem_singleton.mp new
              exact added_good caches
          · obtain ⟨bound, -⟩ := List.getElem?_eq_some_iff.mp here
            simp only
            rw [List.getElem?_append_left bound]
            exact here

theorem get_ok (got : s.get id = .ok s') :
    ∃ r r', s.find id = some r ∧ r.get = .ok r' ∧ s' = s.set id r' := by
  simp only [Catalog.get] at got
  split at got
  · cases got
  case h_2 r found =>
    split at got
    · cases got
    case h_2 r' held =>
      cases got
      exact ⟨r, r', found, held, rfl⟩

theorem Catalog.Good.next {a : Act} (good : s.Good) (step : s.next a = some s') :
    s'.Good ∧ s.Advances s' := by
  cases a with
  | add descriptor answer record grown binding =>
    cases step
    exact good.add
  | get id =>
    cases step
    split
    · exact ⟨good, .same rfl⟩
    case h_2 held got =>
      obtain ⟨r, r', found, held, rfl⟩ := get_ok got
      exact good.set found fun good => good.get held
  | put id =>
    obtain ⟨r, found, step⟩ := Option.bind_eq_some_iff.mp step
    obtain ⟨put, done, rfl⟩ := Option.map_eq_some_iff.mp step
    exact good.set found fun good => good.put done
  | claim id =>
    cases step
    split
    · exact ⟨good, .same rfl⟩
    case h_2 claimed done =>
      simp only [Catalog.claim] at done
      split at done
      · cases done
      case h_2 r found =>
        split at done
        · cases done
        case h_2 claims =>
          cases done
          exact good.set found fun good => good.claim claims
  | snapshot id =>
    cases step
    simp only [Catalog.snapshot]
    split
    · exact ⟨good, .same rfl⟩
    case h_2 r found =>
      split
      · exact ⟨good, .same rfl⟩
      case h_2 held got =>
        refine good.set found fun good => ?_
        have held := good.get got
        exact ⟨{ held.1 with }, { held.2 with }⟩
  | terminal i =>
    obtain ⟨id, -, rfl⟩ := Option.map_eq_some_iff.mp step
    dsimp only
    split
    · exact ⟨good, .same rfl⟩
    case h_2 r found => exact Catalog.Good.set (r := r) good found fun good => good.terminal
  | proceed id i answer memory =>
    obtain ⟨r, found, step⟩ := Option.bind_eq_some_iff.mp step
    obtain ⟨gone, done, rfl⟩ := Option.map_eq_some_iff.mp step
    exact good.set found fun good => good.proceed done

theorem run_good (good : s.Good) (run : Reach (Computed Catalog.next) s s') :
    s'.Good ∧ s.Advances s' := by
  induction run with
  | refl => exact ⟨good, .same rfl⟩
  | step _ next ih =>
    obtain ⟨middle, first⟩ := ih
    obtain ⟨last, second⟩ := middle.next next
    refine ⟨last, fun i r here => ?_⟩
    obtain ⟨between, there, advances⟩ := first i r here
    obtain ⟨r', found, further⟩ := second i between there
    exact ⟨r', found, advances.trans further⟩

/-! ## The contract -/

/-- What a record has been, in any state of the registry. -/
structure Record.Contract (r : Record) : Prop where
  /-- While it is referenced its descriptor is open. -/
  kept : 0 < r.refs → r.closed = 0
  /-- The descriptor is closed once, when the last reference is gone. -/
  closed : r.closed ≤ 1 ∧ (r.refs = 0 → r.retiring = false → r.closed = 1)
  /-- The connection is claimed once. -/
  claimed : r.claims ≤ 1
  /-- The bindings are numbered from one, with ever larger address spaces. -/
  numbered : Numbered r.bindings
  /-- The snapshots never go back, and after the end they are all the same. -/
  ordered : r.returned.Pairwise fun newer older => older.Before newer

theorem Record.Good.contract (good : r.Good) : r.Contract where
  kept held := by
    have closing := good.closing
    rw [if_neg (Nat.pos_iff_ne_zero.mp held)] at closing
    omega
  closed := by
    have closing := good.closing
    refine ⟨by omega, fun unheld finished => ?_⟩
    have last := good.last
    have fewer : r.pending.countP Activity.unclosed ≤ r.pending.countP Activity.last := by
      refine countP_mono_left fun a _ unclosed => ?_
      cases a with
      | asksLast => rfl
      | closes answer => rfl
      | _ => cases unclosed
    rw [finished] at last
    rw [if_pos unheld] at closing
    simp only [Bool.false_eq_true, if_false] at last
    omega
  claimed := by
    rw [good.claimed]
    split <;> decide
  numbered := good.numbered
  ordered := good.ordered

/-- What the registry owes the holders of its identities. -/
structure Catalog.Contract (s : Catalog) : Prop where
  /-- Every record keeps its contract. -/
  records : ∀ r ∈ s.records, r.Contract
  /-- An identity that is issued is new, and finds its descriptor. -/
  issued : ∀ descriptor answer record grown binding,
    (s.add descriptor answer record grown binding).2 ≠ 0 →
    s.find (s.add descriptor answer record grown binding).2 = none ∧
      ∃ r, (s.add descriptor answer record grown binding).1.find
        (s.add descriptor answer record grown binding).2 = some r ∧ r.descriptor = descriptor
  /-- A record is lent exactly while it is held and there is room for one more reference. -/
  lent : ∀ id, (∃ s', s.get id = .ok s') ↔
    ∃ r, s.find id = some r ∧ 0 < r.refs ∧ r.refs < uintMax

theorem add_issues (s : Catalog) (descriptor : Nat) (answer : Except Errno Info)
    (record grown binding : Bool)
    (registered : (s.add descriptor answer record grown binding).2 ≠ 0) :
    s.find (s.add descriptor answer record grown binding).2 = none ∧
      ∃ r, (s.add descriptor answer record grown binding).1.find
        (s.add descriptor answer record grown binding).2 = some r ∧
        r.descriptor = descriptor := by
  revert registered
  simp only [Catalog.add]
  split
  · exact fun zero => absurd rfl zero
  · split
    · exact fun zero => absurd rfl zero
    · split
      · exact fun zero => absurd rfl zero
      · split
        · exact fun zero => absurd rfl zero
        case h_2 cached caches =>
          intro _
          obtain ⟨info, bindings, rfl, -⟩ := cache_caches (by trivial) rfl caches
          refine ⟨by simp [Catalog.find], ?_⟩
          simp [Catalog.find, Record.blank]

theorem Catalog.Good.lent (good : s.Good) (id : Nat) :
    (∃ s', s.get id = .ok s') ↔ ∃ r, s.find id = some r ∧ 0 < r.refs ∧ r.refs < uintMax := by
  constructor
  · rintro ⟨s', got⟩
    obtain ⟨r, r', found, held, -⟩ := get_ok got
    refine ⟨r, found, ?_⟩
    simp only [Record.get] at held
    split at held
    · cases held
    case isFalse free =>
      obtain ⟨refs, -⟩ := not_or.mp free
      split at held
      · cases held
      case isFalse room =>
        have bounded := (good r (mem_of_getElem? (Catalog.find_some found))).bounded
        exact ⟨Nat.pos_of_ne_zero refs, Nat.lt_of_le_of_ne bounded room⟩
  · rintro ⟨r, found, held, room⟩
    have live : r.retiring = false := by
      have unheld := (good r (mem_of_getElem? (Catalog.find_some found))).unheld
      cases flag : r.retiring with
      | true => exact absurd (unheld flag) (Nat.pos_iff_ne_zero.mp held)
      | false => rfl
    refine ⟨s.set id { r with refs := r.refs + 1 }, ?_⟩
    simp [Catalog.get, found, Record.get, live, Nat.pos_iff_ne_zero.mp held, Nat.ne_of_lt room]

/-- The registry of contexts, along every run: what holds at every point, and what every later point
keeps. -/
theorem source_registry_contract {s later : Catalog} (run : Reach (Computed Catalog.next) .new s)
    (onward : Reach (Computed Catalog.next) s later) :
    s.Contract ∧ s.Advances later ∧
      ∀ id mm epoch, s.hasBinding id mm epoch = true → later.hasBinding id mm epoch = true := by
  have good : s.Good := (run_good (fun r here => absurd here not_mem_nil) run).1
  have advances := (run_good good onward).2
  refine ⟨⟨fun r here => (good r here).contract, add_issues s, good.lent⟩, advances, ?_⟩
  intro id mm epoch bound
  obtain ⟨r, found, bound⟩ := (Option.any_eq_true _ _).mp bound
  obtain ⟨r', there, further⟩ := advances.find found
  refine (Option.any_eq_true _ _).mpr ⟨r', there, ?_⟩
  simp only [Record.hasBinding, decide_eq_true_eq] at bound ⊢
  obtain ⟨b, here, same⟩ := any_eq_true.mp bound.2.2
  exact ⟨bound.1, bound.2.1, any_eq_true.mpr ⟨b, further.bindings.mem here, same⟩⟩

def live (mm : Nat) : Info := ⟨5, mm, false, 100, 100, 0⟩

def gone (mm : Nat) : Info := { live mm with ended := true, exitStatus := 9 }

/-- Two snapshots whose answers arrive in the wrong order, then the put of the last reference, and
then a snapshot of what is left. -/
theorem source_registry_contract_retired : ∃ s later : Catalog,
    s.Contract ∧ s.records.map (·.returned) = [[⟨live 8, 2⟩, ⟨live 8, 2⟩]] ∧
      s.Advances later ∧
      later.records.map (·.returned) = [[⟨gone 8, 2⟩, ⟨live 8, 2⟩, ⟨live 8, 2⟩]] ∧
      later.records.map (·.closed) = [1] ∧
      (∀ id mm epoch, s.hasBinding id mm epoch = true → later.hasBinding id mm epoch = true) := by
  have ran : (exec Catalog.next .new
      [.add 3 (.ok (live 7)) true true true, .snapshot 1, .snapshot 1,
        .proceed 1 0 (.ok (live 7)) true, .proceed 1 1 (.ok (live 8)) true,
        .proceed 1 1 (.ok (live 8)) true, .proceed 1 0 (.ok (live 7)) true,
        .proceed 1 0 (.ok .zero) true, .proceed 1 0 (.ok .zero) true]).any (fun s =>
      s.records.map (·.returned) == [[⟨live 8, 2⟩, ⟨live 8, 2⟩]] &&
        (exec Catalog.next s [.put 1, .proceed 1 0 (.ok (gone 8)) true,
          .proceed 1 0 (.ok .zero) true, .proceed 1 0 (.ok .zero) true, .snapshot 1,
          .terminal 0]).any fun later =>
        later.records.map (·.returned) == [[⟨gone 8, 2⟩, ⟨live 8, 2⟩, ⟨live 8, 2⟩]] &&
          later.records.map (·.closed) == [1]) = true := by
    decide
  obtain ⟨s, run, shape⟩ := exec_exhibits ran
  simp only [Bool.and_eq_true, beq_iff_eq] at shape
  obtain ⟨returned, ends⟩ := shape
  obtain ⟨later, onward, shape⟩ := exec_exhibits ends
  simp only [Bool.and_eq_true, beq_iff_eq] at shape
  obtain ⟨contract, advances, kept⟩ := source_registry_contract run onward
  exact ⟨s, later, contract, returned, advances, shape.1, shape.2, kept⟩

/-! ## Saved memory targets, resolved from recorded history only -/

/-- A context and one of its bindings. -/
structure Target where
  context : Nat
  mm : Nat
  epoch : Nat
  deriving DecidableEq

/-- `source_memory_target_for_mm` with an explicit identity; it fails with `ESTALE`. -/
def Catalog.targetForMm (s : Catalog) (id mm : Nat) : Option Target := do
  let r ← s.find id
  let b ← r.bindings.find? (·.mm = mm)
  return ⟨id, b.mm, b.epoch⟩

variable {later : Catalog} {mm : Nat} {b : Binding} {list : List Binding} {t : Target}

/-- The walk over the bindings meets each of them, since no two name one address space. -/
theorem Numbered.finds (numbered : Numbered list) (here : b ∈ list) :
    list.find? (·.mm = b.mm) = some b ∧ b.mm ≠ 0 ∧ b.epoch ≠ 0 := by
  induction list with
  | nil => exact absurd here not_mem_nil
  | cons newest older ih =>
    obtain ⟨epoch, named, smaller, rest⟩ := numbered
    obtain rfl | here := mem_cons.mp here
    · exact ⟨by simp, named, by omega⟩
    · have other : newest.mm ≠ b.mm := Nat.ne_of_gt (smaller b here)
      exact ⟨by simpa [other] using (ih rest here).1, (ih rest here).2⟩

/-- A resolved target names the context and the address space asked for, and it is good for ever: at
every later point of every run `source_record_has_binding` accepts it, and resolving the same
address space again gives the same epoch. -/
theorem target_for_mm_stable (run : Reach (Computed Catalog.next) .new s)
    (onward : Reach (Computed Catalog.next) s later) (resolved : s.targetForMm id mm = some t) :
    t.context = id ∧ t.mm = mm ∧ later.hasBinding t.context t.mm t.epoch = true ∧
      later.targetForMm id mm = some t := by
  have good := (run_good (fun r here => absurd here not_mem_nil) run).1
  obtain ⟨good, advances⟩ := run_good good onward
  obtain ⟨r, found, resolved⟩ := Option.bind_eq_some_iff.mp resolved
  obtain ⟨b, first, ⟨⟩⟩ := Option.bind_eq_some_iff.mp resolved
  obtain ⟨r', there, further⟩ := advances.find found
  have numbered := (good r' (mem_of_getElem? (Catalog.find_some there))).numbered
  have kept : b ∈ r'.bindings := further.bindings.mem (mem_of_find?_eq_some first)
  obtain ⟨again, named, counted⟩ := numbered.finds kept
  have same : b.mm = mm := by simpa using List.find?_some first
  refine ⟨rfl, same, (Option.any_eq_true _ _).mpr ⟨r', there, ?_⟩, ?_⟩
  · simp only [Record.hasBinding, decide_eq_true_eq, any_eq_true]
    exact ⟨named, counted, b, kept, rfl, rfl⟩
  · simp [Catalog.targetForMm, there, ← same, again]

/-- The address space before an exec is still resolved after it. -/
theorem target_for_mm_after_exec : ∃ later : Catalog, later.records.map Record.epoch = [2] ∧
    later.targetForMm 1 7 = some ⟨1, 7, 1⟩ := by
  have bound := @exec_get_reach _ _ Catalog.next .new
    [.add 3 (.ok (live 7)) true true true] (by decide)
  refine ⟨_, ?_, (target_for_mm_stable bound (@exec_get_reach _ _ _ _
    [.snapshot 1, .proceed 1 0 (.ok (live 8)) true, .proceed 1 0 (.ok .zero) true]
    (by decide)) (by decide)).2.2.2⟩
  decide

end Vmctx.Registry
