import Vmctx.Events.Report
import Vmctx.System.History
/-!
# An event is delivered at most once

A monitor that serves one event at a time, taking it once and answering what it took, gets every
event at most once: at any time at most one of its threads is engaged with the current event, from
taking it to the end of its `RESUME`. The kernel does not enforce this. A second `WAIT` returns an
event that was already returned, a fault of its copy lets the context take the event back, and a
`RESUME` answers whatever is pending when it stores.
-/

namespace Vmctx.Events

open Vmctx.System List

def Later (log : List Event) (first second : Event) : Prop :=
  ∃ newer older, log = newer ++ first :: older ∧ second ∈ newer

variable {first event : Event} {log : List Event} {count : Nat} {stored : Reply}

theorem Later.now (second : Event) (before : first ∈ log) : Later (second :: log) first second := by
  obtain ⟨newer, older, rfl⟩ := append_of_mem before
  exact ⟨second :: newer, older, rfl, mem_cons_self⟩

theorem Later.cons {second : Event} (event : Event) (later : Later log first second) :
    Later (event :: log) first second := by
  obtain ⟨newer, older, rfl, member⟩ := later
  exact ⟨event :: newer, older, rfl, mem_cons_of_mem _ member⟩

def Reason : Event → List Event → Prop
  | .returned number, earlier => .published number ∈ earlier ∧ .returned number ∉ earlier ∧
    .withdrawn number ∉ earlier
  | .retried number, earlier => .withdrawn number ∈ earlier ∧ .returned number ∉ earlier
  | .consumed number call, earlier => Later earlier (.published number) (.issued call)
  | _, _ => True

def Event.number? : Event → Option Nat
  | .published number => some number
  | .returned number => some number
  | .withdrawn number => some number
  | .retried number => some number
  | .issued _ => none
  | .consumed number _ => some number

/-- The thread is engaged with an event: it copies it, has yet to answer it or answers it. -/
def Thread.engaged (t : Thread) : Bool :=
  match t.call with
  | .idle => t.holds.isSome
  | .waiting => t.holds.isSome
  | .claiming => t.holds.isSome
  | _ => true

def Reply.Fits (reply : Reply) (count : Nat) (log : List Event) : Prop :=
  reply.action ≠ actRetry ∧ Later log (.published count) (.issued reply.call)

/-- Where the engaged thread stands, with the pending flag and the reply that is stored. -/
def Thread.Engaged (t : Thread) (count : Nat) (log : List Event) (pending : Bool)
    (stored : Reply) : Prop :=
  match t.call with
  | .copying ev => t.holds = none ∧ ev.number = count ∧ .returned count ∉ log
  | .checking reply => t.holds = some count ∧ reply.Fits count log
  | .writing reply => t.holds = some count ∧ reply.Fits count log
  | .unpending _ => t.holds = some count ∧ stored.Fits count log
  | .setting _ => t.holds = some count ∧ stored.Fits count log ∧ pending = false
  | _ => t.holds = some count

namespace Desk

variable {s s' : Desk} {owner : Option Nat}

def quiet (s : Desk) : Bool := s.threads.all fun t => !t.engaged

/-- A monitor that serves one event at a time: a thread takes an event that no thread has taken, it
answers what its `WAIT` returned, with an action of the interface, and after a report that gave up
the threads are done with the event before the context publishes another. Before the first event any
thread may call `RESUME`, which opens the entry gate: the context publishes nothing until that call
is over. -/
def serves (s : Desk) : Label → Bool
  | .own .publish => !s.gaveUp && s.count != 0 || s.quiet
  | .thread _ .claim => !(s.evPending && s.evTaken)
  | .thread i (.resumeCall action) => match s.threads[i]? with
    | some t => s.count == 0 || t.holds.isSome && action != actRetry
    | none => true
  | _ => true

def Place (s : Desk) (owner : Option Nat) : Prop :=
  match s.pc with
  | .running => s.evPending = false ∧ (s.gaveUp = true ∨ owner = none)
  | .entered => s.evPending = false ∧ (s.gaveUp = true ∨ owner = none) ∧ s.ev.number = s.count + 1
  | .publishing => s.evPending = false ∧ (s.gaveUp = true ∨ owner = none) ∧
    s.ev.number = s.count + 1
  | .leaving true => .withdrawn s.count ∈ s.log
  | .dropping => s.evPending = false
  | .consuming => s.replyPending = true
  | .clearing reply => s.replyPending = true ∧ reply.Fits s.count s.log
  | _ => True

/-- What holds between any two steps of a monitor that serves one event at a time. -/
structure Kept (owner : Option Nat) (s : Desk) : Prop where
  justified : Justified Reason s.log
  within : ∀ event number, event ∈ s.log → event.number? = some number → number ≤ s.count
  others : ∀ i t, s.threads[i]? = some t → owner ≠ some i → t.engaged = false
  mine : ∀ i, owner = some i → ∃ t, s.threads[i]? = some t ∧ s.evTaken = true ∧
    .published s.count ∈ s.log ∧ t.Engaged s.count s.log s.evPending s.reply
  fresh : s.evTaken = false → .returned s.count ∉ s.log
  current : s.evPending = true → s.ev.number = s.count ∧ .published s.count ∈ s.log
  replied : s.replyPending = true → s.evPending = false ∧ owner = none ∧
    s.reply.Fits s.count s.log
  withdrawn : .withdrawn s.count ∈ s.log → s.evPending = false ∧ owner = none ∧
    .returned s.count ∉ s.log
  place : s.Place owner

end Desk

/-! Histories grow. -/

theorem Reply.Fits.cons {reply : Reply} (event : Event) (fits : reply.Fits count log) :
    reply.Fits count (event :: log) :=
  ⟨fits.1, fits.2.cons event⟩

theorem Thread.Engaged.cons {t : Thread} {pending : Bool}
    (engaged : t.Engaged count log pending stored) (apart : event ≠ .returned count) :
    t.Engaged count (event :: log) pending stored := by
  unfold Thread.Engaged at engaged ⊢
  split at engaged
  · have unreturned : Event.returned count ∉ event :: log := by
      rw [mem_cons, not_or]
      exact ⟨apart.symm, engaged.2.2⟩
    exact ⟨engaged.1, engaged.2.1, unreturned⟩
  · exact ⟨engaged.1, engaged.2.cons event⟩
  · exact ⟨engaged.1, engaged.2.cons event⟩
  · exact ⟨engaged.1, engaged.2.cons event⟩
  · exact ⟨engaged.1, engaged.2.1.cons event, engaged.2.2⟩
  · exact engaged

theorem Thread.Engaged.unpend {t : Thread} {pending : Bool}
    (engaged : t.Engaged count log pending stored) : t.Engaged count log false stored := by
  unfold Thread.Engaged at engaged ⊢
  split at engaged
  · exact engaged
  · exact engaged
  · exact engaged
  · exact engaged
  · exact ⟨engaged.1, engaged.2.1, rfl⟩
  · exact engaged

def Call.calm : Call → Bool
  | idle => true
  | waiting => true
  | claiming => true
  | _ => false

theorem Thread.engaged_calm {t : Thread} (calm : t.call.calm = true) :
    t.engaged = t.holds.isSome := by
  unfold Thread.engaged
  revert calm
  cases t.call <;> simp [Call.calm]

theorem Thread.engaged_holds {t : Thread} {pending : Bool} (calm : t.call.calm = true) :
    t.Engaged count log pending stored ↔ t.holds = some count := by
  unfold Thread.Engaged
  revert calm
  cases t.call <;> simp [Call.calm]

namespace Desk

variable {s s' : Desk} {owner owner' : Option Nat} {i : Nat} {t t' : Thread}

theorem Kept.engaged (kept : s.Kept owner) (found : s.threads[i]? = some t)
    (busy : t.engaged = true) : owner = some i ∧ s.evTaken = true ∧
      .published s.count ∈ s.log ∧ t.Engaged s.count s.log s.evPending s.reply := by
  have same : owner = some i := by
    refine Decidable.byContradiction fun other => ?_
    rw [kept.others i t found other] at busy
    cases busy
  obtain ⟨u, here, rest⟩ := kept.mine i same
  rw [found, Option.some.injEq] at here
  exact ⟨same, here ▸ rest⟩

theorem Kept.free (kept : s.Kept owner) (untaken : s.evTaken = false) : owner = none := by
  cases engaged : owner with
  | none => rfl
  | some i =>
    obtain ⟨t, -, taken, -⟩ := kept.mine i engaged
    rw [untaken] at taken
    cases taken

theorem Kept.quiet (kept : s.Kept owner) (quiet : s.quiet = true) : owner = none := by
  cases engaged : owner with
  | none => rfl
  | some i =>
    obtain ⟨t, found, -, -, mine⟩ := kept.mine i engaged
    have idle := all_eq_true.mp quiet t (mem_of_getElem? found)
    rw [Bool.not_eq_true'] at idle
    unfold Thread.engaged at idle
    unfold Thread.Engaged at mine
    revert idle mine
    cases t.call <;> simp +contextual

theorem others_set {threads : List Thread}
    (others : ∀ j u, threads[j]? = some u → owner ≠ some j → u.engaged = false)
    (rest : ∀ j, j ≠ i → owner' ≠ some j → owner ≠ some j)
    (here : owner' ≠ some i → t'.engaged = false) :
    ∀ j u, (threads.set i t')[j]? = some u → owner' ≠ some j → u.engaged = false := by
  intro j u found free
  by_cases same : j = i
  · subst same
    rw [List.getElem?_set, if_pos rfl, Option.ite_none_right_eq_some, Option.some.injEq] at found
    exact found.2 ▸ here free
  · rw [List.getElem?_set_ne (Ne.symm same)] at found
    exact others j u found (rest j same free)

theorem set_found {threads : List Thread} (found : threads[i]? = some t) :
    (threads.set i t')[i]? = some t' := by
  rw [List.getElem?_set, if_pos rfl, if_pos (List.getElem?_eq_some_iff.mp found).1]

section

variable (place : s.Place owner)
include place

theorem Place.free : s.Place none := by
  unfold Place at place ⊢
  split at place
  · exact ⟨place.1, .inr rfl⟩
  · exact ⟨place.1, .inr rfl, place.2.2⟩
  · exact ⟨place.1, .inr rfl, place.2.2⟩
  all_goals exact place

theorem Place.note (event : Event) : (s.note event).Place owner := by
  unfold Place at place ⊢
  simp only [Desk.note]
  split at place
  all_goals first
    | exact place
    | exact mem_cons_of_mem _ place
    | exact ⟨place.1, place.2.cons event⟩

theorem Place.pending (pending : s.evPending = true) : s.Place owner' := by
  unfold Place at place ⊢
  split at place
  all_goals first
    | exact place
    | exact absurd (place.1.symm.trans pending) (by decide)

theorem Place.unpend : { s with evPending := false }.Place owner := by
  unfold Place at place ⊢
  simp only [true_and]
  split at place
  all_goals first
    | exact place
    | exact place.2
    | trivial

theorem Place.reply (lock : Bool) :
    { s with replyPending := true, cpuCtl := lock }.Place owner := by
  unfold Place at place ⊢
  simp only [true_and]
  split at place
  all_goals first
    | exact place
    | exact place.2
    | trivial

end

theorem Kept.open_ (kept : s.Kept (some i)) :
    s.replyPending = false ∧ Event.withdrawn s.count ∉ s.log := by
  constructor
  · refine Bool.eq_false_iff.mpr fun replied => ?_
    cases (kept.replied replied).2.1
  · intro withdrawn
    cases (kept.withdrawn withdrawn).2.1

variable {pc : Pc} {label : Label}

theorem Kept.goes (kept : s.Kept owner) (place : (s.goto pc).Place owner) :
    (s.goto pc).Kept owner :=
  ⟨kept.justified, kept.within, kept.others, kept.mine, kept.fresh, kept.current, kept.replied,
    kept.withdrawn, place⟩

theorem Kept.engage (kept : s.Kept (some i)) (found : s.threads[i]? = some t)
    (engaged : t'.Engaged s.count s.log s.evPending s.reply) :
    (s.setThread i t').Kept (some i) where
  justified := kept.justified
  within := kept.within
  others := others_set kept.others (fun _ _ free => free) (fun free => absurd rfl free)
  mine j same := by
    cases same
    obtain ⟨-, -, taken, published, -⟩ := kept.mine i rfl
    exact ⟨t', set_found found, taken, published, engaged⟩
  fresh := kept.fresh
  current := kept.current
  replied := kept.replied
  withdrawn := kept.withdrawn
  place := kept.place

theorem Kept.release (kept : s.Kept (some i)) (idle : t'.engaged = false) :
    (s.setThread i t').Kept none where
  justified := kept.justified
  within := kept.within
  others := others_set kept.others (fun j apart _ same => apart (Option.some.inj same).symm)
    (fun _ => idle)
  mine j same := by cases same
  fresh := kept.fresh
  current := kept.current
  replied replied := by cases (kept.replied replied).2.1
  withdrawn withdrawn := absurd withdrawn kept.open_.2
  place := kept.place.free

section

variable (kept : s.Kept owner)
include kept

theorem Kept.calm (found : s.threads[i]? = some t) (before : t.call.calm = true) {call : Call}
    (after : call.calm = true) : (s.setThread i { t with call := call }).Kept owner where
  justified := kept.justified
  within := kept.within
  others := by
    refine others_set kept.others (fun _ _ free => free) fun free => ?_
    have idle := kept.others i t found free
    rw [Thread.engaged_calm before] at idle
    rw [Thread.engaged_calm after]
    exact idle
  mine j same := by
    obtain ⟨u, here, taken, published, engaged⟩ := kept.mine j same
    by_cases own : j = i
    · subst own
      rw [found, Option.some.injEq] at here
      subst here
      rw [Thread.engaged_holds before] at engaged
      exact ⟨_, set_found found, taken, published, (Thread.engaged_holds after).mpr engaged⟩
    · refine ⟨u, ?_, taken, published, engaged⟩
      exact (List.getElem?_set_ne (Ne.symm own)).trans here
  fresh := kept.fresh
  current := kept.current
  replied := kept.replied
  withdrawn := kept.withdrawn
  place := kept.place

theorem Kept.note (reason : Reason event s.log)
    (bounded : ∀ number, event.number? = some number → number ≤ s.count)
    (unreturned : event ≠ .returned s.count) (apart : event ≠ .withdrawn s.count) :
    (s.note event).Kept owner where
  justified := kept.justified.cons reason
  within entry number member about := by
    rcases mem_cons.mp member with rfl | old
    · exact bounded number about
    · exact kept.within entry number old about
  others := kept.others
  mine j same := by
    obtain ⟨u, here, taken, published, engaged⟩ := kept.mine j same
    exact ⟨u, here, taken, mem_cons_of_mem _ published, engaged.cons unreturned⟩
  fresh untaken := by
    change Event.returned s.count ∉ event :: s.log
    rw [mem_cons, not_or]
    exact ⟨unreturned.symm, kept.fresh untaken⟩
  current pending := ⟨(kept.current pending).1, mem_cons_of_mem _ (kept.current pending).2⟩
  replied replied := by
    obtain ⟨ended, free, fits⟩ := kept.replied replied
    exact ⟨ended, free, fits.cons event⟩
  withdrawn member := by
    obtain same | old := mem_cons.mp member
    · exact absurd same.symm apart
    · obtain ⟨ended, free, never⟩ := kept.withdrawn old
      refine ⟨ended, free, ?_⟩
      change Event.returned s.count ∉ event :: s.log
      rw [mem_cons, not_or]
      exact ⟨unreturned.symm, never⟩
  place := kept.place.note event

/-! The steps of the context. -/

theorem Kept.fill (at_ : s.pc = .running) {type : EvType} (ran : s.fill type = some s') :
    s'.Kept owner := by
  obtain ⟨-, same⟩ := Option.ite_none_right_eq_some.mp ran
  cases same
  have place := kept.place
  simp only [Place, at_] at place
  exact ⟨kept.justified, kept.within, kept.others, kept.mine, kept.fresh,
    fun pending => absurd (place.1.symm.trans pending) (by decide), kept.replied, kept.withdrawn,
    place.1, place.2, rfl⟩

theorem Kept.publish (at_ : s.pc = .publishing) (served : s.gaveUp = false ∨ s.quiet = true) :
    s.publish.Kept none := by
  have place := kept.place
  simp only [Place, at_] at place
  -- The threads are done with the event before.
  have free : owner = none := by
    rcases place.2.1 with gaveUp | free
    · rcases served with served | quiet
      · rw [served] at gaveUp
        cases gaveUp
      · exact kept.quiet quiet
    · exact free
  subst free
  have unknown : ∀ event, event.number? = some (s.count + 1) →
      event ≠ .published (s.count + 1) → event ∉ s.publish.log := by
    intro event about apart member
    rcases mem_cons.mp member with same | old
    · exact apart same
    · have bounded := kept.within event _ old about
      omega
  refine ⟨kept.justified.cons trivial, ?_, kept.others, nofun,
    fun _ => unknown _ rfl nofun, fun _ => ⟨place.2.2, mem_cons_self⟩, nofun,
    fun member => absurd member (unknown _ rfl nofun), trivial⟩
  intro event number member about
  rcases mem_cons.mp member with rfl | old
  · cases about
    exact Nat.le_refl _
  · exact Nat.le_succ_of_le (kept.within event number old about)

theorem Kept.unpend (place : ({ s with evPending := false }.goto pc).Place owner) :
    ({ s with evPending := false }.goto pc).Kept owner where
  justified := kept.justified
  within := kept.within
  others := kept.others
  mine j same := by
    obtain ⟨u, here, taken, published, engaged⟩ := kept.mine j same
    exact ⟨u, here, taken, published, engaged.unpend⟩
  fresh := kept.fresh
  current pending := by cases pending
  replied replied := ⟨rfl, (kept.replied replied).2⟩
  withdrawn member := ⟨rfl, (kept.withdrawn member).2⟩
  place := place

theorem Kept.givesUp (abandoned lost monitor : Bool) :
    ({ s with
      evPending := false
      gaveUp := true
      evAbandoned := abandoned
      monitorLost := lost
      monitor := monitor }.goto .running).Kept owner := by
  have cleared : ({ s with evPending := false }.goto .choosing).Kept owner := kept.unpend trivial
  exact ⟨cleared.justified, cleared.within, cleared.others, cleared.mine, cleared.fresh,
    cleared.current, cleared.replied, cleared.withdrawn, rfl, .inl rfl⟩

theorem Kept.withdraw : s.withdraw.Kept owner := by
  unfold Desk.withdraw
  split
  · exact kept.goes trivial
  next taken =>
  have untaken : s.evTaken = false := by rwa [Bool.not_eq_true] at taken
  cases kept.free untaken
  have cleared : ({ s with evPending := false }.goto .choosing).Kept none := kept.unpend trivial
  refine ⟨kept.justified.cons trivial, ?_, kept.others, nofun, ?_, nofun, ?_, ?_,
    mem_cons_self⟩
  · intro event number member about
    rcases mem_cons.mp member with rfl | old
    · cases about
      exact Nat.le_refl _
    · exact kept.within event number old about
  · intro _ member
    rcases mem_cons.mp member with same | old
    · cases same
    · exact kept.fresh untaken old
  · intro replied
    obtain ⟨-, -, fits⟩ := kept.replied replied
    exact ⟨rfl, rfl, fits.cons _⟩
  · intro _
    refine ⟨rfl, rfl, ?_⟩
    intro member
    rcases mem_cons.mp member with same | old
    · cases same
    · exact kept.fresh untaken old

theorem Kept.leave {withdrew : Bool} (at_ : s.pc = .leaving withdrew) :
    (s.leave withdrew).Kept owner := by
  unfold Desk.leave
  split
  · next replied => exact kept.goes replied
  split
  · next _ back =>
    subst back
    have withdrawn := kept.place
    simp only [Place, at_] at withdrawn
    obtain ⟨ended, free, never⟩ := kept.withdrawn withdrawn
    have noted : (s.note (.retried s.count)).Kept owner :=
      kept.note ⟨withdrawn, never⟩ (by intro number same; cases same; exact Nat.le_refl _) nofun
        nofun
    exact noted.goes ⟨ended, .inr free⟩
  · exact kept.goes trivial

theorem Kept.finish {reply : Reply} (at_ : s.pc = .clearing reply) :
    (s.finish reply).Kept owner := by
  have place := kept.place
  simp only [Place, at_] at place
  obtain ⟨replied, honest, later⟩ := place
  obtain ⟨ended, free, -⟩ := kept.replied replied
  have noted : (s.note (.consumed s.count reply.call)).Kept owner :=
    kept.note later (by intro number same; cases same; exact Nat.le_refl _) nofun nofun
  simp only [Desk.finish, if_neg honest]
  exact ⟨noted.justified, noted.within, noted.others, noted.mine, noted.fresh, noted.current,
    nofun, noted.withdrawn, ended, .inr free⟩

theorem Kept.ownNext {step : Own} (served : s.serves (.own step) = true)
    (ran : s.ownNext step = some s') : ∃ owner', s'.Kept owner' := by
  simp only [Desk.ownNext] at ran
  split at ran
  all_goals try (cases ran)
  · next at_ => exact ⟨owner, kept.fill at_ ran⟩
  · next at_ =>
    have place := kept.place
    simp only [Place, at_] at place
    exact ⟨owner, kept.justified, kept.within, kept.others, kept.mine, kept.fresh, kept.current,
      kept.replied, kept.withdrawn, place⟩
  · next at_ =>
    refine ⟨none, kept.publish at_ ?_⟩
    simp only [serves, Bool.or_eq_true, Bool.and_eq_true, Bool.not_eq_true'] at served
    exact served.imp_left And.left
  · exact ⟨owner, kept.goes trivial⟩
  · obtain ⟨-, same⟩ := Option.ite_none_right_eq_some.mp ran
    cases same
    exact ⟨owner, kept.goes trivial⟩
  · unfold Desk.look
    split <;> exact ⟨owner, kept.goes trivial⟩
  · unfold Desk.decide_
    split
    · exact ⟨owner, kept.goes trivial⟩
    · split <;> exact ⟨owner, kept.goes trivial⟩
  · exact ⟨owner, kept.givesUp _ _ _⟩
  · exact ⟨owner, kept.withdraw⟩
  · unfold Desk.poll
    split <;> exact ⟨owner, kept.goes trivial⟩
  · unfold Desk.time
    split <;> exact ⟨owner, kept.goes trivial⟩
  · next at_ => exact ⟨owner, kept.leave at_⟩
  · exact ⟨owner, kept.unpend rfl⟩
  · next at_ =>
    have cleared := kept.place
    simp only [Place, at_] at cleared
    exact ⟨owner, kept.justified, kept.within, kept.others, kept.mine, kept.fresh, kept.current,
      kept.replied, kept.withdrawn, cleared, .inl rfl⟩
  · next at_ =>
    have replied := kept.place
    simp only [Place, at_] at replied
    exact ⟨owner, kept.goes ⟨replied, (kept.replied replied).2.2⟩⟩
  · next at_ => exact ⟨owner, kept.finish at_⟩
  · exact ⟨owner, kept.justified, kept.within, kept.others, kept.mine, kept.fresh, kept.current,
      kept.replied, kept.withdrawn, trivial⟩
  · exact ⟨owner, kept.unpend trivial⟩

/-! The steps of a thread. -/

theorem Kept.claim (found : s.threads[i]? = some t) (at_ : t.call = .claiming)
    (untaken : s.evPending = true → s.evTaken = false) : ∃ owner', (s.claim i t).Kept owner' := by
  have calm : t.call.calm = true := by rw [at_]; rfl
  unfold Desk.claim
  split
  · next pending =>
    cases kept.free (untaken pending)
    obtain ⟨current, published⟩ := kept.current pending
    have idle := kept.others i t found nofun
    rw [Thread.engaged_calm calm, Option.isSome_eq_false_iff, Option.isNone_iff_eq_none] at idle
    have unreturned := kept.fresh (untaken pending)
    refine ⟨some i, kept.justified, kept.within, ?_, ?_, nofun, kept.current, ?_, ?_, ?_⟩
    · exact others_set kept.others (fun _ _ _ => nofun) (fun free => absurd rfl free)
    · intro j same
      cases same
      exact ⟨_, set_found found, rfl, published, idle, current, unreturned⟩
    · intro replied
      rw [(kept.replied replied).1] at pending
      cases pending
    · intro withdrawn
      rw [(kept.withdrawn withdrawn).1] at pending
      cases pending
    · exact kept.place.pending pending
  · exact ⟨owner, kept.calm found calm rfl⟩

theorem Kept.copyOut (found : s.threads[i]? = some t) {ev : Ev} (at_ : t.call = .copying ev)
    (copied : Bool) : ∃ owner', (s.copyOut i t ev copied).Kept owner' := by
  have busy : t.engaged = true := by rw [Thread.engaged, at_]
  obtain ⟨rfl, taken, published, engaged⟩ := kept.engaged found busy
  simp only [Thread.Engaged, at_] at engaged
  obtain ⟨empty, current, unreturned⟩ := engaged
  obtain ⟨-, unwithdrawn⟩ := kept.open_
  unfold Desk.copyOut
  split
  · have held : (s.setThread i ⟨.idle, some ev.number⟩).Kept (some i) :=
      kept.engage found (congrArg some current)
    rw [current]
    rw [current] at held
    refine ⟨some i, kept.justified.cons ⟨published, unreturned, unwithdrawn⟩, ?_, held.others, ?_,
      ?_, ?_, ?_, ?_, ?_⟩
    · intro event number member about
      rcases mem_cons.mp member with rfl | old
      · cases about
        exact Nat.le_refl _
      · exact kept.within event number old about
    · intro j same
      cases same
      exact ⟨_, set_found found, taken, mem_cons_of_mem _ published, rfl⟩
    · intro untaken
      rw [show s.evTaken = false from untaken] at taken
      cases taken
    · intro pending
      exact ⟨(kept.current pending).1, mem_cons_of_mem _ (kept.current pending).2⟩
    · intro replied
      cases (kept.replied replied).2.1
    · intro member
      rcases mem_cons.mp member with same | old
      · cases same
      · exact absurd old unwithdrawn
    · exact kept.place.note _
  · have freed : (s.setThread i { t with call := .idle }).Kept none := by
      refine kept.release ?_
      rw [Thread.engaged_calm rfl, empty]
      rfl
    exact ⟨none, freed.justified, freed.within, freed.others, nofun, fun _ => unreturned,
      freed.current, freed.replied, freed.withdrawn, freed.place⟩

theorem Kept.resumeCall (found : s.threads[i]? = some t) (at_ : t.call = .idle) {action : UInt32}
    (holds : t.holds.isSome = true) (honest : action ≠ actRetry)
    (ran : s.resumeCall i t action = some s') : s'.Kept owner := by
  obtain ⟨-, same⟩ := Option.ite_none_right_eq_some.mp ran
  cases same
  have calm : t.call.calm = true := by
    rw [at_]
    rfl
  obtain ⟨rfl, taken, published, engaged⟩ :=
    kept.engaged found ((Thread.engaged_calm calm).trans holds)
  rw [Thread.engaged_holds calm] at engaged
  have noted : (s.note (.issued (s.calls + 1))).Kept (some i) := kept.note trivial nofun nofun nofun
  have entered : ((s.note (.issued (s.calls + 1))).setThread i
      { t with call := .checking ⟨action, s.calls + 1⟩ }).Kept (some i) :=
    noted.engage found ⟨engaged, honest, Later.now _ published⟩
  exact ⟨entered.justified, entered.within, entered.others, entered.mine, entered.fresh,
    entered.current, entered.replied, entered.withdrawn, entered.place⟩

theorem Kept.resumeCheck (found : s.threads[i]? = some t) {reply : Reply}
    (at_ : t.call = .checking reply) : ∃ owner', (s.resumeCheck i t reply).Kept owner' := by
  have busy : t.engaged = true := by rw [Thread.engaged, at_]
  obtain ⟨rfl, -, -, engaged⟩ := kept.engaged found busy
  simp only [Thread.Engaged, at_] at engaged
  unfold Desk.resumeCheck
  split
  · have freed : (s.setThread i ⟨.idle, none⟩).Kept none := kept.release rfl
    exact ⟨none, freed.justified, freed.within, freed.others, freed.mine, freed.fresh,
      freed.current, freed.replied, freed.withdrawn, freed.place⟩
  · exact ⟨some i, kept.engage found engaged⟩

theorem Kept.resumeWrite (found : s.threads[i]? = some t) {reply : Reply}
    (at_ : t.call = .writing reply) : (s.resumeWrite i t reply).Kept owner := by
  have busy : t.engaged = true := by rw [Thread.engaged, at_]
  obtain ⟨rfl, taken, published, engaged⟩ := kept.engaged found busy
  simp only [Thread.Engaged, at_] at engaged
  refine ⟨kept.justified, kept.within, ?_, ?_, kept.fresh, kept.current, ?_, kept.withdrawn,
    kept.place⟩
  · exact others_set kept.others (fun _ _ free => free) (fun free => absurd rfl free)
  · intro j same
    cases same
    exact ⟨_, set_found found, taken, published, engaged⟩
  · intro replied
    cases (kept.replied replied).2.1

theorem Kept.resumeClear (found : s.threads[i]? = some t) {reply : Reply}
    (at_ : t.call = .unpending reply) : (s.resumeClear i t reply).Kept owner := by
  have busy : t.engaged = true := by rw [Thread.engaged, at_]
  obtain ⟨rfl, -, -, engaged⟩ := kept.engaged found busy
  simp only [Thread.Engaged, at_] at engaged
  have cleared : ({ s with evPending := false }.goto s.pc).Kept (some i) :=
    kept.unpend kept.place.unpend
  exact cleared.engage found ⟨engaged.1, engaged.2, rfl⟩

theorem Kept.resumeSet (found : s.threads[i]? = some t) {reply : Reply}
    (at_ : t.call = .setting reply) : (s.resumeSet i).Kept none := by
  have busy : t.engaged = true := by rw [Thread.engaged, at_]
  obtain ⟨rfl, -, -, engaged⟩ := kept.engaged found busy
  simp only [Thread.Engaged, at_] at engaged
  have freed : (s.setThread i ⟨.idle, none⟩).Kept none := kept.release rfl
  exact ⟨freed.justified, freed.within, freed.others, freed.mine, freed.fresh, freed.current,
    fun _ => ⟨engaged.2.2, rfl, engaged.2.1⟩, freed.withdrawn, freed.place.reply _⟩

theorem Kept.actNext (begun : 0 < s.count) (found : s.threads[i]? = some t) {act : Act}
    (served : s.serves (.thread i act) = true) (ran : s.actNext i t act = some s') :
    ∃ owner', s'.Kept owner' := by
  simp only [Desk.actNext] at ran
  split at ran
  all_goals try (cases ran)
  · next at_ =>
    obtain ⟨-, same⟩ := Option.ite_none_right_eq_some.mp ran
    cases same
    exact ⟨owner, kept.calm found (by rw [at_]; rfl) rfl⟩
  · next at_ =>
    have calm : t.call.calm = true := by
      rw [at_]
      rfl
    unfold Desk.waitWake at ran
    split at ran
    · cases ran
      exact ⟨owner, kept.calm found calm rfl⟩
    · obtain ⟨-, same⟩ := Option.ite_none_right_eq_some.mp ran
      cases same
      exact ⟨owner, kept.calm found calm rfl⟩
  · next at_ => exact ⟨owner, kept.calm found (by rw [at_]; rfl) rfl⟩
  · next at_ =>
    refine kept.claim found at_ fun pending => ?_
    simpa [serves, pending] using served
  · next at_ => exact kept.copyOut found at_ _
  · next at_ =>
    simp only [serves, found, Bool.or_eq_true, Bool.and_eq_true, beq_iff_eq, bne_iff_ne] at served
    obtain ⟨holds, honest⟩ := served.resolve_left (Nat.ne_of_gt begun)
    exact ⟨owner, kept.resumeCall found at_ holds honest ran⟩
  · next at_ => exact kept.resumeCheck found at_
  · next at_ => exact ⟨owner, kept.resumeWrite found at_⟩
  · next at_ => exact ⟨owner, kept.resumeClear found at_⟩
  · next at_ => exact ⟨none, kept.resumeSet found at_⟩

theorem Kept.around (monitor alive fatal : Bool) :
    { s with monitor := monitor, alive := alive, fatal := fatal }.Kept owner :=
  ⟨kept.justified, kept.within, kept.others, kept.mine, kept.fresh, kept.current, kept.replied,
    kept.withdrawn, kept.place⟩

theorem Kept.step (begun : 0 < s.count) (served : s.serves label = true) (step : Step s label s') :
    ∃ owner', s'.Kept owner' := by
  cases label with
  | own step_ => exact kept.ownNext served step
  | thread i act =>
    obtain ⟨t, found, ran⟩ := Option.bind_eq_some_iff.mp step
    exact kept.actNext begun found served ran
  | attach =>
    obtain ⟨-, same⟩ := Option.ite_none_right_eq_some.mp step
    cases same
    exact ⟨owner, kept.around _ _ _⟩
  | detach | die | kill =>
    cases step
    exact ⟨owner, kept.around _ _ _⟩

end

/-! Before the first event. -/

/-- No event is there to take or to answer, and a thread may be in a `RESUME`. -/
structure Starting (s : Desk) : Prop where
  count : s.count = 0
  unpublished : s.evPending = false
  untaken : s.evTaken = false
  unabandoned : s.evAbandoned = false
  issues : ∀ event ∈ s.log, ∃ call, event = .issued call
  place : s.pc = .running ∨ (s.pc = .entered ∨ s.pc = .publishing) ∧ s.ev.number = 1 ∨
    s.pc = .exiting ∨ s.pc = .gone
  threads : ∀ t ∈ s.threads, t.holds = none ∧ ∀ ev, t.call ≠ .copying ev

theorem Starting.start (service : Bool) (threads : Nat) : (start service threads).Starting where
  count := rfl
  unpublished := rfl
  untaken := rfl
  unabandoned := rfl
  issues _ member := by cases member
  place := .inl rfl
  threads t member := by
    rw [eq_of_mem_replicate member]
    exact ⟨rfl, by simp⟩

theorem Starting.justified (starting : s.Starting) : Justified Reason s.log := by
  intro later event earlier same
  obtain ⟨call, rfl⟩ := starting.issues event (same ▸ mem_append_right _ mem_cons_self)
  trivial

theorem Starting.publish (starting : s.Starting) (at_ : s.pc = .publishing)
    (quiet : s.quiet = true) : s.publish.Kept none := by
  have unknown (event : Event) (number : Nat) (about : event.number? = some number) :
      event ∉ s.log := by
    intro member
    obtain ⟨call, rfl⟩ := starting.issues event member
    cases about
  have place := starting.place
  simp only [at_, reduceCtorEq, or_true, true_and, false_or, or_false] at place
  have kept : { s with replyPending := false }.Kept none := {
    justified := starting.justified
    within := fun event number member about => absurd member (unknown event number about)
    others := fun i t found _ => by
      have idle := all_eq_true.mp quiet t (mem_of_getElem? found)
      simpa using idle
    mine := nofun
    fresh := fun _ => unknown _ _ rfl
    current := fun pending => absurd (starting.unpublished.symm.trans pending) (by decide)
    replied := nofun
    withdrawn := fun member => absurd member (unknown _ _ rfl)
    place := by
      simp only [Place, at_]
      rw [starting.count]
      exact ⟨starting.unpublished, .inr trivial, place⟩ }
  exact kept.publish at_ (.inr quiet)

theorem Starting.step (starting : s.Starting) (served : s.serves label = true)
    (step : Step s label s') : s'.Starting ∨ s'.Kept none ∧ 0 < s'.count := by
  cases label with
  | own step_ =>
    simp only [Computed, next, ownNext] at step
    have place := starting.place
    have count := starting.count
    split at step
    · obtain ⟨-, same⟩ := Option.ite_none_right_eq_some.mp step
      cases same
      refine .inl { starting with place := .inr (.inl ⟨.inl rfl, ?_⟩) }
      exact congrArg (· + 1) count
    · next at_ =>
      cases step
      simp only [at_, reduceCtorEq, true_and, false_or, or_false] at place
      exact .inl { starting with place := .inr (.inl ⟨.inr rfl, place⟩) }
    · next at_ =>
      cases step
      refine .inr ⟨starting.publish at_ ?_, Nat.succ_pos _⟩
      simpa [serves, count] using served
    all_goals try simp_all only [reduceCtorEq, or_self, false_and]
    · cases step
      exact .inl { starting with place := .inr (.inr (.inl rfl)) }
    · cases step
      exact .inl { starting with unpublished := rfl, place := .inr (.inr (.inr rfl)) }
  | thread i act =>
    left
    obtain ⟨t, found, ran⟩ := Option.bind_eq_some_iff.mp step
    obtain ⟨holds, idle⟩ := starting.threads t (mem_of_getElem? found)
    have set {call : Call} (apart : ∀ ev, call ≠ .copying ev) (u : Thread)
        (member : u ∈ s.threads.set i ⟨call, none⟩) : u.holds = none ∧ ∀ ev, u.call ≠ .copying ev :=
      (mem_or_eq_of_mem_set member).elim (starting.threads u) fun same =>
        same ▸ ⟨rfl, apart⟩
    have unpublished := starting.unpublished
    obtain ⟨call, _⟩ := t
    cases holds
    simp only [Desk.actNext] at ran
    split at ran
    · obtain ⟨-, same⟩ := Option.ite_none_right_eq_some.mp ran
      cases same
      exact { starting with threads := set (by simp) }
    · simp only [waitWake, unpublished, Bool.false_eq_true, if_false] at ran
      obtain ⟨-, same⟩ := Option.ite_none_right_eq_some.mp ran
      cases same
      exact { starting with threads := set (by simp) }
    · cases ran
      exact { starting with threads := set (by simp) }
    · simp only [claim, unpublished, Bool.false_eq_true, if_false] at ran
      cases ran
      exact { starting with threads := set (by simp) }
    · exact absurd rfl (idle _)
    · obtain ⟨-, same⟩ := Option.ite_none_right_eq_some.mp ran
      cases same
      refine { starting with issues := ?_, threads := set (by simp) }
      intro event member
      exact (mem_cons.mp member).elim (fun same => ⟨_, same⟩) (starting.issues event)
    · simp only [resumeCheck, starting.unabandoned, Bool.false_eq_true, if_false] at ran
      cases ran
      exact { starting with threads := set (by simp) }
    · cases ran
      exact { starting with threads := set (by simp) }
    · cases ran
      exact { starting with unpublished := rfl, threads := set (by simp) }
    · cases ran
      exact { starting with threads := set (by simp) }
    · cases ran
  | attach =>
    obtain ⟨-, same⟩ := Option.ite_none_right_eq_some.mp step
    cases same
    exact .inl { starting with }
  | detach | die | kill =>
    cases step
    exact .inl { starting with }

theorem step_count (step : Step s label s') : s.count ≤ s'.count := by
  cases label with
  | own step_ =>
    simp only [Computed, next, ownNext] at step
    split at step <;> grind [fill, dropDead, publish, choose, wake, look, decide_, abandon,
      withdraw, poll, time, leave, lose, drop, consume, finish, exit, unpublish, goto, note]
  | thread i act =>
    obtain ⟨t, -, ran⟩ := Option.bind_eq_some_iff.mp step
    simp only [Desk.actNext] at ran
    split at ran <;> grind [waitCall, waitWake, claim, copyOut, resumeCall, resumeCheck,
      resumeWrite, resumeClear, resumeSet, setThread, note]
  | _ => grind [Computed, next]

/-! The contract. -/

/-- What the event queue owes a monitor and the task it watches. -/
structure Delivers (s : Desk) : Prop where
  /-- Every entry is justified: an event is returned after it was published, once and not after it
  was withdrawn, an instruction is run again only after its event was withdrawn and never returned,
  and a reply that is consumed was issued after the event was published. -/
  justified : Justified Reason s.log
  /-- An event is returned once. -/
  once : ∀ number, s.log.count (.returned number) ≤ 1
  /-- An event whose instruction is run again was returned by no `WAIT`, then or later. -/
  retry : ∀ number, .retried number ∈ s.log → .returned number ∉ s.log

theorem count_le_one (justified : Justified Reason log)
    (once : ∀ earlier, Reason event earlier → event ∉ earlier) : log.count event ≤ 1 := by
  induction log with
  | nil => exact Nat.zero_le 1
  | cons entry log ih =>
    have before : Justified Reason log := fun later found earlier same =>
      justified (entry :: later) found earlier (by rw [same]; rfl)
    rw [count_cons]
    split
    · next same =>
      cases eq_of_beq same
      have absent := once log (justified [] _ log rfl)
      have none := count_eq_zero.mpr absent
      omega
    · exact ih before

/-- In every run of any number of monitor threads that serve one event at a time, with signals,
deadlines, copies that fault and monitors that come and go, every event is delivered at most once in
every state. -/
theorem events_delivered {service : Bool} {threads : Nat} {s : Desk}
    (run : Reach (Guarded (fun s label => s.serves label = true) Step)
      (start service threads) s) : s.Delivers := by
  have keeps : ∀ (s : Desk) (label : Label) (s' : Desk),
      (s.Starting ∨ (∃ owner, s.Kept owner) ∧ 0 < s.count) →
      Guarded (fun s label => s.serves label = true) Step s label s' →
      s'.Starting ∨ (∃ owner, s'.Kept owner) ∧ 0 < s'.count := by
    rintro s label s' (starting | ⟨⟨owner, kept⟩, begun⟩) ⟨served, step⟩
    · exact (starting.step served step).imp_right fun next => ⟨⟨none, next.1⟩, next.2⟩
    · exact .inr ⟨kept.step begun served step, Nat.lt_of_lt_of_le begun (step_count step)⟩
  have justified : Justified Reason s.log := by
    rcases run.invariant keeps (.inl (Starting.start service threads)) with
      starting | ⟨⟨owner, kept⟩, -⟩
    · exact starting.justified
    · exact kept.justified
  refine ⟨justified, ?_, ?_⟩
  · intro number
    exact count_le_one justified fun earlier reason => reason.2.1
  · intro number retried returned
    obtain ⟨later, earlier, split_⟩ := append_of_mem retried
    obtain ⟨withdrawn, never⟩ := justified later _ earlier split_
    -- The `WAIT` would have returned after the withdrawal.
    have after : Event.returned number ∈ later := by
      rw [split_, mem_append, mem_cons] at returned
      rcases returned with newer | same | older
      · exact newer
      · cases same
      · exact absurd older never
    obtain ⟨newer, between, rfl⟩ := append_of_mem after
    have reason := justified newer (.returned number) (between ++ .retried number :: earlier)
      (by rw [split_, append_assoc, cons_append])
    exact reason.2.2 (mem_append_right _ (mem_cons_of_mem _ withdrawn))

/-- A `RESUME` starts the context. A signal takes back an event that faulted on its way out, the
next is delivered and answered. -/
theorem events_delivered_again : ∃ s, (Reach
      (Guarded (fun s label => s.serves label = true) Step) (start false 2) s ∧
      .retried 1 ∈ s.log ∧ .consumed 2 2 ∈ s.log) ∧ s.Delivers := by
  have ran : (exec (fun s label => if s.serves label then s.next label else none)
      (start false 2)
      [.thread 0 (.resumeCall 1), .thread 0 .resumeCheck, .thread 0 .resumeWrite,
        .thread 0 .resumeClear, .thread 0 .resumeSet, .thread 0 .waitCall, .thread 1 .waitCall,
        .own (.fill .syscall), .own .dropDead, .own .publish, .thread 0 .waitWake,
        .thread 1 .waitWake, .own .choose, .thread 0 .claim, .thread 0 (.copyOut false),
        .own (.wake .signal), .own .look, .own .decide_, .own .withdraw, .own .leave,
        .thread 1 .claim, .own (.fill .syscall), .own .dropDead, .own .publish, .thread 1 .waitWake,
        .thread 1 .claim, .thread 1 (.copyOut true), .own .choose, .thread 1 (.resumeCall 1),
        .thread 1 .resumeCheck, .thread 1 .resumeWrite, .thread 1 .resumeClear,
        .thread 1 .resumeSet, .own (.wake .event), .own .look, .own .leave, .own .consume,
        .own .finish]).any
      (fun s => s.log.contains (.retried 1) && s.log.contains (.consumed 2 2)) = true := by
    decide +kernel
  obtain ⟨s, run, passes⟩ := exec_exhibits_guarded ran
  simp only [Bool.and_eq_true, contains_iff_mem] at passes
  exact ⟨s, ⟨run, passes⟩, events_delivered run⟩

/-- Two threads of a monitor call `WAIT` and both return the system call that is pending. A third
faults as it copies it out, which marks the event as not taken, so a signal withdraws it and the
guest is told to run the instruction again. A `RESUME` that was issued before the event is published
a second time answers it. -/
theorem delivered_twice : ∃ s, Reach Step (start false 3) s ∧
    s.log = [.consumed 2 1, .published 2, .issued 1, .retried 1, .withdrawn 1, .returned 1,
      .returned 1, .published 1] := by
  have ran : (exec next (start false 3)
      [.thread 0 .waitCall, .thread 1 .waitCall, .thread 2 .waitCall, .own (.fill .syscall),
        .own .dropDead, .own .publish, .own .choose, .thread 0 .waitWake, .thread 0 .claim,
        .thread 0 (.copyOut true), .thread 1 .waitWake, .thread 1 .claim,
        .thread 1 (.copyOut true), .thread 2 .waitWake, .thread 2 .claim,
        .thread 2 (.copyOut false), .own (.wake .signal), .own .look, .own .decide_,
        .own .withdraw, .own .leave, .thread 0 (.resumeCall 1), .thread 0 .resumeCheck,
        .own (.fill .syscall), .own .dropDead, .own .publish, .own .choose,
        .thread 0 .resumeWrite, .thread 0 .resumeClear, .thread 0 .resumeSet, .own (.wake .event),
        .own .look, .own .leave, .own .consume, .own .finish]).any
      (fun s => s.log == [.consumed 2 1, .published 2, .issued 1, .retried 1, .withdrawn 1,
        .returned 1, .returned 1, .published 1]) = true := by
    decide +kernel
  obtain ⟨s, run, passes⟩ := exec_exhibits ran
  exact ⟨s, run, eq_of_beq passes⟩

end Desk

end Vmctx.Events
