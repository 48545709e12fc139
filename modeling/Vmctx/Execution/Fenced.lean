import Mathlib.Logic.Basic
import Vmctx.Execution.Target
import Vmctx.System.Run
/-!
# Execution bindings are monotone and fenced

The targets of one source epoch agree, and of the native epochs only the current target has the
latest. A publication holds the lock from its check to its return, so what it found stays until it
changes it; and a control whose operation runs keeps the lock of the binding, so that its target
stays the current one.
-/

namespace Vmctx.Execution

open Vmctx.System List

/-! ## The invariant -/

/-- What a call that has finished has changed. -/
structure Finished.Right (d : Finished) : Prop where
  /-- A failed call has changed nothing. -/
  failed : ∀ errno, d.result = .error errno → d.after = d.before
  /-- An observation changes neither the current target nor the native binding. -/
  observed : d.publishes = false →
    d.after.current = d.before.current ∧ d.after.native = d.before.native
  /-- Nor does a binding whose epoch is not above the current one. -/
  old : d.source.epoch ≤ d.before.current.source.epoch →
    d.after.current = d.before.current ∧ d.after.native = d.before.native
  /-- What changes one of them installs the binding: the source epoch grows, and the native one by
  one. -/
  replaced : d.after.current ≠ d.before.current ∨ d.after.native ≠ d.before.native →
    d.after.current.source = d.source ∧ d.after.current.view = d.after.native ∧
      d.before.current.source.epoch < d.after.current.source.epoch ∧
      d.after.native.epoch = d.before.native.epoch + 1
  /-- The history only grows. -/
  grows : d.before.history <:+ d.after.history

/-- The calls, newest first, lead from one snapshot to another without a gap. -/
def Linked (start last : Snapshot) : List Finished → Prop
  | [] => last = start
  | d :: earlier => last = d.after ∧ Linked start d.before earlier

def Agree (history : List Target) (source : MmBinding) (mm : Nat) : Prop :=
  ∀ t ∈ history, t.source.epoch = source.epoch → t.source = source ∧ t.view.mm = mm

/-- What a publication in progress relies on. -/
structure Publication.Right (p : Publication) (s : Context) : Prop where
  /-- Nothing has changed since it began. -/
  before : p.before = ⟨s.current, s.history, s.current.view⟩
  /-- Its binding is newer than the current one. -/
  newer : s.current.source.epoch < p.source.epoch
  /-- And contradicts no recorded one. -/
  agree : Agree s.history p.source p.mm
  /-- No control runs while the binding is replaced. -/
  alone : p.stage = .replacing ∨ p.stage = .committed → s.readers = []

def Context.Installed (s : Context) : Prop :=
  match s.publication with
  | none => s.binding = s.current.view ∧ s.installed = s.current.view
  | some p =>
    match p.stage with
    | .waiting | .replacing => s.binding = s.current.view ∧ s.installed = s.current.view
    | .committed =>
      s.binding = s.current.view ∧ s.installed = ⟨p.mm, s.current.view.epoch + 1⟩
    | .bound =>
      s.binding = ⟨p.mm, s.current.view.epoch + 1⟩ ∧
        s.installed = ⟨p.mm, s.current.view.epoch + 1⟩

def Context.settled (s : Context) : Snapshot :=
  match s.publication with
  | none => s.snapshot
  | some p => p.before

structure Context.Good (start : Snapshot) (s : Context) : Prop where
  latest : ∀ t ∈ s.history, t = s.current ∨ t.view.epoch < s.current.view.epoch
  agree : ∀ t ∈ s.history, Agree s.history t.source t.view.mm
  current : s.current ∈ s.history
  positive : s.current.view.epoch ≠ 0
  installed : s.Installed
  publication : ∀ p, s.publication = some p → p.Right s
  readers : ∀ r ∈ s.readers, r.target ∈ s.history ∧
    (r.running = true → r.target.view = s.binding)
  done : ∀ d ∈ s.done, d.Right
  linked : Linked start s.settled s.done

variable {mms : Nat → ExecutionMm} {start : Snapshot} {s s' : Context} {p : Publication}
  {source : MmBinding} {mm : Nat}

/-! ## Calls that do not replace -/

variable {publishes memory : Bool} {result : Except (Option Errno) Target} {object : Option Nat}
  {i epoch identity : Nat} {r : Reader} {a : Act} {first : Context}

theorem Finished.right_of_same {before : Snapshot} :
    Finished.Right ⟨publishes, source, before, before, result⟩ where
  failed _ _ := rfl
  observed _ := ⟨rfl, rfl⟩
  old _ := ⟨rfl, rfl⟩
  replaced changed := changed.elim (absurd rfl) (absurd rfl)
  grows := suffix_refl _

theorem Context.settled_free (free : s.publication = none) : s.settled = s.snapshot := by
  simp only [Context.settled, free]

theorem Context.Good.free (good : s.Good start) (free : s.publication = none) :
    s.binding = s.current.view ∧ s.installed = s.current.view := by
  have installed := good.installed
  simp only [Context.Installed, free] at installed
  exact installed

theorem Context.Good.finish (good : s.Good start) (free : s.publication = none) :
    (s.finish publishes source s.snapshot result).Good start where
  latest := good.latest
  agree := good.agree
  current := good.current
  positive := good.positive
  installed := good.free free
  publication _ none := nomatch none
  readers := good.readers
  done d here := by
    obtain rfl | old := mem_cons.mp here
    · exact Finished.right_of_same
    · exact good.done d old
  linked := ⟨rfl, Context.settled_free free ▸ good.linked⟩

theorem Context.Good.refuse {errno : Option Errno} (good : s.Good start)
    (here : s.publication = some p) (early : p.stage = .waiting ∨ p.stage = .replacing) :
    (s.refuse p errno).Good start := by
  have right := good.publication p here
  have installed : s.binding = s.current.view ∧ s.installed = s.current.view := by
    have installed := good.installed
    simp only [Context.Installed, here] at installed
    obtain stage | stage := early
    · simpa only [stage] using installed
    · simpa only [stage] using installed
  have same : s.snapshot = p.before := by
    rw [right.before, Context.snapshot, installed.1]
  have linked : Linked start p.before s.done := by
    have linked := good.linked
    simpa only [Context.settled, here] using linked
  exact {
    latest := good.latest
    agree := good.agree
    current := good.current
    positive := good.positive
    installed := installed
    publication := nofun
    readers := good.readers
    done := fun d here => by
      obtain rfl | old := mem_cons.mp here
      · rw [same]
        exact Finished.right_of_same
      · exact good.done d old
    linked := ⟨rfl, linked⟩ }

/-! ## Recording a target -/

theorem Context.Good.agrees (good : s.Good start) (fits : s.conflicts source mm = false) :
    Agree s.history source mm := by
  intro t here epoch
  simp only [Context.conflicts, decide_eq_false_iff_not, not_or] at fits
  have found : (s.find source).isSome = true := by
    simp only [Context.find, List.find?_isSome]
    exact ⟨t, here, by simpa using epoch⟩
  obtain ⟨first, isFirst⟩ := Option.isSome_iff_exists.mp found
  have mem := mem_of_find?_eq_some isFirst
  have sameEpoch : first.source.epoch = source.epoch := by simpa using List.find?_some isFirst
  have fitsFirst : first.source = source ∧ first.view.mm = mm := by
    have clean := fits.2
    rw [isFirst] at clean
    simpa using clean
  have one := good.agree first mem t here (epoch.trans sameEpoch.symm)
  exact ⟨one.1.trans fitsFirst.1, one.2.trans fitsFirst.2⟩

theorem Agree.cons {history : List Target} {t : Target}
    (agree : ∀ t ∈ history, Agree history t.source t.view.mm)
    (fits : Agree history t.source t.view.mm) :
    ∀ u ∈ t :: history, Agree (t :: history) u.source u.view.mm := by
  intro u here v there epoch
  obtain rfl | oldU := mem_cons.mp here
  · obtain rfl | oldV := mem_cons.mp there
    · exact ⟨rfl, rfl⟩
    · exact fits v oldV epoch
  · obtain rfl | oldV := mem_cons.mp there
    · have same := fits u oldU epoch.symm
      exact ⟨same.1.symm, same.2.symm⟩
    · exact agree u oldU v oldV epoch

section

variable (good : s.Good start)
include good

theorem Context.Good.record (free : s.publication = none) (fits : s.conflicts source mm = false) :
    (s.record publishes source mm memory).Good start := by
  simp only [Context.record]
  split
  · exact good.finish free
  · split
    · exact good.finish free
    · exact {
        latest := fun t here => by
          obtain rfl | old := mem_cons.mp here
          · exact .inr (Nat.pos_of_ne_zero good.positive)
          · exact good.latest t old
        agree := Agree.cons good.agree (good.agrees fits)
        current := mem_cons_of_mem _ good.current
        positive := good.positive
        installed := good.free free
        publication := nofun
        readers := fun r here =>
          have old := good.readers r here
          ⟨mem_cons_of_mem _ old.1, old.2⟩
        done := fun d here => by
          obtain rfl | old := mem_cons.mp here
          · exact {
              failed := nofun
              observed := fun _ => ⟨rfl, rfl⟩
              old := fun _ => ⟨rfl, rfl⟩
              replaced := fun changed => changed.elim (absurd rfl) (absurd rfl)
              grows := suffix_cons .. }
          · exact good.done d old
        linked := ⟨rfl, Context.settled_free free ▸ good.linked⟩ }

/-! ## A replacement -/

theorem Context.Good.goesTo {binding installed : View} {stage : Stage}
    (here : s.publication = some p) (bindings : Context.Installed { s with
      binding, installed, publication := some { p with stage } })
    (alone : stage = .replacing ∨ stage = .committed → s.readers = [])
    (running : ∀ r ∈ s.readers, r.running = true → r.target.view = binding) :
    Context.Good start { s with binding, installed, publication := some { p with stage } } where
  latest := good.latest
  agree := good.agree
  current := good.current
  positive := good.positive
  installed := bindings
  publication q same := by
    cases same
    have right := good.publication p here
    exact ⟨right.before, right.newer, right.agree, alone⟩
  readers r there := ⟨(good.readers r there).1, running r there⟩
  done := good.done
  linked := by
    have linked := good.linked
    simp only [Context.settled, here] at linked
    exact linked

theorem Context.Good.install (here : s.publication = some p) (step : s.install p = some s') :
    s'.Good start := by
  have right := good.publication p here
  simp only [Context.install] at step
  split at step
  · cases step
  case isFalse stage =>
    have stage : p.stage = .bound := not_not.mp stage
    cases step
    have installed := good.installed
    simp only [Context.Installed, here, stage] at installed
    have linked : Linked start p.before s.done := by
      have linked := good.linked
      simpa only [Context.settled, here] using linked
    exact {
      latest := fun t there => by
        obtain rfl | old := mem_cons.mp there
        · exact .inl rfl
        · refine .inr ?_
          obtain rfl | older := good.latest t old
          · exact Nat.lt_succ_self _
          · exact Nat.lt_succ_of_lt older
      agree := Agree.cons good.agree right.agree
      current := mem_cons_self
      positive := Nat.succ_ne_zero _
      installed := installed
      publication := nofun
      readers := fun r there =>
        have old := good.readers r there
        ⟨mem_cons_of_mem _ old.1, old.2⟩
      done := fun d there => by
        obtain rfl | old := mem_cons.mp there
        · exact {
            failed := nofun
            observed := nofun
            old := fun notNewer => by
              simp only [right.before] at notNewer
              exact absurd right.newer (Nat.not_lt.mpr notNewer)
            replaced := fun _ => by
              simp only [Context.snapshot, right.before]
              exact ⟨trivial, installed.1.symm, right.newer, by rw [installed.1]⟩
            grows := by
              simp only [Context.snapshot, right.before]
              exact suffix_cons .. }
        · exact good.done d old
      linked := ⟨rfl, linked⟩ }

/-! ## Every step -/

theorem Context.Good.observe (step : s.observe mms object source memory = some s') :
    s'.Good start := by
  simp only [Context.observe] at step
  split at step
  · cases step
    exact good
  · split at step
    · cases step
      exact good
    · split at step
      · cases step
      case isFalse free =>
        have free : s.publication = none := by simpa using free
        split at step
        · cases step
          exact good.finish free
        case isFalse fits =>
          cases step
          exact good.record free (by simpa using fits)

theorem Context.Good.publish (step : s.publish mms object source memory = some s') :
    s'.Good start := by
  simp only [Context.publish] at step
  split at step
  · cases step
    exact good
  · split at step
    · cases step
      exact good
    · split at step
      · cases step
      case isFalse free =>
        have free : s.publication = none := by simpa using free
        split at step
        · cases step
          exact good.finish free
        case isFalse fits =>
          have fits := by simpa using fits
          split at step
          · cases step
            exact good.record free fits
          case isFalse newer =>
            split at step
            · cases step
              exact good.finish free
            · split at step
              · cases step
                exact good.finish free
              · split at step
                · cases step
                  exact good.finish free
                · cases step
                  have same := (good.free free).1
                  exact {
                    latest := good.latest
                    agree := good.agree
                    current := good.current
                    positive := good.positive
                    installed := good.free free
                    publication := fun p here => by
                      cases here
                      refine ⟨?_, Nat.lt_of_not_le newer, good.agrees fits, ?_⟩
                      · rw [Context.snapshot, same]
                      · rintro (stage | stage) <;> cases stage
                    readers := good.readers
                    done := good.done
                    linked := Context.settled_free free ▸ good.linked }

theorem Context.Good.replaces (here : s.publication = some p) :
    (s.lock p = some s' → s'.Good start) ∧
      (∀ outcome, s.replace p outcome = some s' → s'.Good start) ∧
      (s.bind p = some s' → s'.Good start) := by
  have installed := good.installed
  simp only [Context.Installed, here] at installed
  refine ⟨?_, ?_, ?_⟩
  · intro step
    simp only [Context.lock] at step
    split at step
    · cases step
    case isFalse ready =>
      have ⟨stage, empty⟩ := not_or.mp ready
      have stage : p.stage = .waiting := not_not.mp stage
      have empty : s.readers = [] := not_not.mp empty
      simp only [stage] at installed
      split at step
      · cases step
        exact good.refuse here (.inl stage)
      · split at step
        · cases step
          exact good.refuse here (.inl stage)
        · cases step
          exact good.goesTo here installed (fun _ => empty)
            fun r there => (good.readers r there).2
  · intro outcome step
    simp only [Context.replace] at step
    split at step
    · cases step
    case isFalse stage =>
      have stage : p.stage = .replacing := not_not.mp stage
      simp only [stage] at installed
      split at step
      · cases step
        exact good.refuse here (.inr stage)
      · split at step
        · cases step
        case isFalse exact_ =>
          cases step
          have alone := (good.publication p here).alone (.inl stage)
          have epoch := not_not.mp exact_
          refine good.goesTo here ⟨installed.1, ?_⟩ (fun _ => alone)
            fun r there => (good.readers r there).2
          rw [epoch]
  · intro step
    simp only [Context.bind] at step
    split at step
    · cases step
    case isFalse stage =>
      have stage : p.stage = .committed := not_not.mp stage
      simp only [stage] at installed
      cases step
      have alone := (good.publication p here).alone (.inr stage)
      refine good.goesTo here ⟨rfl, installed.2⟩ (fun _ => alone) fun r there => ?_
      rw [alone] at there
      cases there

theorem Context.Good.with_readers {readers : List Reader}
    (right : ∀ r ∈ readers, r.target ∈ s.history ∧ (r.running = true → r.target.view = s.binding))
    (alone : ∀ p, s.publication = some p → p.stage = .replacing ∨ p.stage = .committed →
      readers = []) : Context.Good start { s with readers } :=
  { good with
    readers := right
    publication := fun p here =>
      { good.publication p here with alone := alone p here } }

theorem Context.Good.shared (there : s.readers[i]? = some r) (here : s.publication = some p) :
    ¬(p.stage = .replacing ∨ p.stage = .committed) := by
  intro stage
  rw [(good.publication p here).alone stage] at there
  cases there

theorem Context.Good.control {target : Option Target} (step : s.control target = some s') :
    s'.Good start := by
  simp only [Context.control] at step
  split at step
  · cases step
    exact good
  case h_2 target =>
    split at step
    · cases step
    case isFalse known =>
      split at step
      · cases step
        exact good
      · split at step
        · cases step
        case isFalse idle =>
          cases step
          refine good.with_readers (fun r there => ?_) fun p here stage => ?_
          · obtain rfl | old := mem_cons.mp there
            · exact ⟨not_not.mp known, nofun⟩
            · exact good.readers r old
          · refine absurd ?_ idle
            simp only [Context.writing, here, Option.any_some, decide_eq_true_eq]
            exact stage

theorem Context.Good.check (step : s.check i = some s') : s'.Good start := by
  simp only [Context.check] at step
  split at step
  case h_1 target there =>
    have reader := good.readers _ (mem_of_getElem? there)
    split at step
    · cases step
      refine good.with_readers (fun r mem => good.readers r (mem_of_mem_eraseIdx mem)) ?_
      exact fun p here stage => absurd stage (good.shared there here)
    case isFalse same =>
      cases step
      refine good.with_readers (fun r mem => ?_) ?_
      · obtain old | rfl := mem_or_eq_of_mem_set mem
        · exact good.readers r old
        · exact ⟨reader.1, fun _ => (not_not.mp same).symm⟩
      · exact fun p here stage => absurd stage (good.shared there here)
  · cases step

theorem Context.Good.leave (step : s.leave i = some s') : s'.Good start := by
  simp only [Context.leave] at step
  split at step
  case h_1 target there =>
    cases step
    refine good.with_readers (fun r mem => good.readers r (mem_of_mem_eraseIdx mem)) ?_
    exact fun p here stage => absurd stage (good.shared there here)
  · cases step

theorem Context.Good.next (step : s.next mms a = some s') : s'.Good start := by
  cases a with
  | observe object source memory => exact good.observe step
  | publish object source memory => exact good.publish step
  | lock =>
    obtain ⟨p, here, step⟩ := Option.bind_eq_some_iff.mp step
    exact (good.replaces here).1 step
  | replace outcome =>
    obtain ⟨p, here, step⟩ := Option.bind_eq_some_iff.mp step
    exact (good.replaces here).2.1 outcome step
  | bind =>
    obtain ⟨p, here, step⟩ := Option.bind_eq_some_iff.mp step
    exact (good.replaces here).2.2 step
  | install =>
    obtain ⟨p, here, step⟩ := Option.bind_eq_some_iff.mp step
    exact good.install here step
  | control target => exact good.control step
  | check i => exact good.check step
  | leave i => exact good.leave step

end

theorem init_good (init : Context.init mms identity mm source epoch = some first) :
    first.Good first.snapshot := by
  simp only [Context.init] at init
  split at init
  · cases init
  case isFalse real =>
    cases init
    constructor
    case latest => exact fun t here => .inl (mem_singleton.mp here)
    case agree =>
      intro t here u there _
      cases mem_singleton.mp here
      cases mem_singleton.mp there
      exact ⟨rfl, rfl⟩
    case current => exact mem_singleton.mpr rfl
    case positive => exact fun zero => real (.inr (.inl zero))
    case installed => exact ⟨rfl, rfl⟩
    case publication => exact nofun
    case readers => exact nofun
    case done => exact nofun
    case linked => exact rfl

theorem reached_good (init : Context.init mms identity mm source epoch = some first)
    (run : Reach (Computed (Context.next mms)) first s) : s.Good first.snapshot :=
  run.invariant (fun _ _ _ good step => good.next step) (init_good init)

/-! ## Recorded targets -/

theorem record_history : s.history <:+ (s.record publishes source mm memory).history := by
  simp only [Context.record]
  split
  · exact suffix_refl _
  · split
    · exact suffix_refl _
    · exact suffix_cons ..

theorem history_step (step : s.next mms a = some s') : s.history <:+ s'.history := by
  -- Only a recorded observation and the end of a replacement add a target, each at the head.
  cases a with
  | observe object source memory =>
    simp only [Context.next, Context.observe] at step
    repeat' split at step
    all_goals cases step
    all_goals first | exact suffix_refl _ | exact record_history
  | publish object source memory =>
    simp only [Context.next, Context.publish] at step
    repeat' split at step
    all_goals cases step
    all_goals first | exact suffix_refl _ | exact record_history
  | lock =>
    obtain ⟨p, -, step⟩ := Option.bind_eq_some_iff.mp step
    simp only [Context.lock] at step
    repeat' split at step
    all_goals cases step
    all_goals exact suffix_refl _
  | replace outcome =>
    obtain ⟨p, -, step⟩ := Option.bind_eq_some_iff.mp step
    simp only [Context.replace] at step
    repeat' split at step
    all_goals cases step
    all_goals exact suffix_refl _
  | bind =>
    obtain ⟨p, -, step⟩ := Option.bind_eq_some_iff.mp step
    simp only [Context.bind] at step
    split at step
    all_goals cases step
    exact suffix_refl _
  | install =>
    obtain ⟨p, -, step⟩ := Option.bind_eq_some_iff.mp step
    simp only [Context.install] at step
    split at step
    all_goals cases step
    exact suffix_cons ..
  | control target =>
    simp only [Context.next, Context.control] at step
    repeat' split at step
    all_goals cases step
    all_goals exact suffix_refl _
  | check i =>
    simp only [Context.next, Context.check] at step
    repeat' split at step
    all_goals cases step
    all_goals exact suffix_refl _
  | leave i =>
    simp only [Context.next, Context.leave] at step
    split at step
    all_goals cases step
    exact suffix_refl _

theorem history_run (run : Reach (Computed (Context.next mms)) s s') :
    s.history <:+ s'.history := by
  induction run with
  | refl => exact suffix_refl _
  | step _ next ih => exact ih.trans (history_step next)

/-! ## The contract -/

/-- What the bindings of a context are, whatever calls overlap. -/
structure Context.Contract (start : Snapshot) (s : Context) : Prop where
  /-- While the publication lock is free, the current target is the native binding. -/
  agrees : s.publication = none → s.current.view = s.binding ∧ s.installed = s.binding
  /-- Every finished call has changed what it may. -/
  calls : ∀ d ∈ s.done, d.Right
  /-- And these calls account for all that has changed since the start. -/
  linked : Linked start s.settled s.done
  /-- Recorded targets of one source epoch have the same binding and address space. -/
  recorded : ∀ t ∈ s.history, ∀ u ∈ s.history, t.source.epoch = u.source.epoch →
    t.source = u.source ∧ t.view.mm = u.view.mm
  /-- A control whose operation runs has the current target, and that is what the kernel has. -/
  fenced : ∀ r ∈ s.readers, r.running = true →
    r.target = s.current ∧ r.target.view = s.binding ∧ r.target.view = s.installed

theorem Context.Good.fenced (good : s.Good start) (there : r ∈ s.readers)
    (running : r.running = true) :
    r.target = s.current ∧ r.target.view = s.binding ∧ r.target.view = s.installed := by
  obtain ⟨known, bound⟩ := good.readers r there
  have view := bound running
  have installed := good.installed
  simp only [Context.Installed] at installed
  have current (same : s.binding = s.current.view) : r.target = s.current := by
    obtain same' | older := good.latest r.target known
    · exact same'
    · rw [view, same] at older
      exact absurd older (Nat.lt_irrefl _)
  split at installed
  · exact ⟨current installed.1, view, view.trans (installed.1.trans installed.2.symm)⟩
  case h_2 p here =>
    split at installed
    · exact ⟨current installed.1, view, view.trans (installed.1.trans installed.2.symm)⟩
    · exact ⟨current installed.1, view, view.trans (installed.1.trans installed.2.symm)⟩
    case h_3 stage =>
      rw [(good.publication p here).alone (.inr stage)] at there
      cases there
    · -- The new binding is stored, but no target has its epoch yet.
      rw [installed.1] at view
      have epoch : r.target.view.epoch = s.current.view.epoch + 1 := congrArg View.epoch view
      obtain same | older := good.latest r.target known
      · rw [same] at epoch
        omega
      · omega

theorem Context.Good.contract (good : s.Good start) : s.Contract start where
  agrees free := by
    have same := good.free free
    exact ⟨same.1.symm, same.2.trans same.1.symm⟩
  calls := good.done
  linked := good.linked
  recorded t here u there epoch := good.agree u there t here epoch
  fenced _ there running := good.fenced there running

/-- In every state of a context its bindings fit its history, and the history only grows. -/
theorem execution_binding_contract {first s later : Context} {identity mm epoch : Nat}
    {source : MmBinding} (init : Context.init mms identity mm source epoch = some first)
    (run : Reach (Computed (Context.next mms)) first s)
    (onward : Reach (Computed (Context.next mms)) s later) :
    s.Contract first.snapshot ∧ s.history <:+ later.history :=
  ⟨(reached_good init run).contract, history_run onward⟩

def roots : Nat → ExecutionMm := fun mm => ⟨mm + 10, 0⟩

def inFirst : Context :=
  ⟨⟨⟨1, 10, 0, 1⟩, 0, 5⟩, [⟨⟨1, 10, 0, 1⟩, 0, 5⟩], ⟨0, 5⟩, ⟨0, 5⟩, none, [], []⟩

/-- A later binding is observed, then published over the first; a control of the first target is
stale, and one of the second runs. -/
theorem execution_binding_contract_replaced : ∃ s later : Context,
    s.Contract inFirst.snapshot ∧ s.history.length = 3 ∧ s.current.view = ⟨1, 6⟩ ∧
    s.readers.length = 1 ∧ later.readers = [] ∧ s.history <:+ later.history := by
  have init : Context.init roots 1 0 ⟨1, 10, 0, 1⟩ 5 = some inFirst := rfl
  have ran : (exec (Context.next roots) inFirst
      [.observe (some 1) ⟨1, 11, 0, 2⟩ true, .control (some ⟨⟨1, 10, 0, 1⟩, 0, 5⟩),
        .publish (some 1) ⟨1, 11, 0, 2⟩ true, .check 0, .leave 0, .lock, .replace (.ok 6), .bind,
        .control (some ⟨⟨1, 10, 0, 1⟩, 0, 5⟩), .install, .check 0,
        .control (some ⟨⟨1, 11, 0, 2⟩, 1, 6⟩), .check 0]).any (fun s =>
      s.history.length == 3 && s.current.view == ⟨1, 6⟩ && s.readers.length == 1 &&
        ((s.next roots (.leave 0)).any fun later => later.readers == [])) = true := by
    decide
  obtain ⟨s, run, shape⟩ := exec_exhibits ran
  simp only [Bool.and_eq_true, beq_iff_eq, Option.any_eq_true] at shape
  obtain ⟨⟨⟨length, current⟩, readers⟩, later, step, gone⟩ := shape
  have contract := execution_binding_contract init run (.step .refl step)
  exact ⟨s, later, contract.1, length, current, readers, gone, contract.2⟩

end Vmctx.Execution
