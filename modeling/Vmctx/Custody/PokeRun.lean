import Vmctx.Custody.PokeCalls
/-!
# Calls along a run

Every step keeps calls and operations together: a new call fits its operation, a section of a call
leaves it fitting, others leave it alone, and a call that is over has put its frames and returned
its length or an error, according to whether it copied.
-/

namespace Vmctx.Custody

open Kernel Function

variable {k k' : Kernel} {a : Act} {reply : Reply} {p : Page} {id : Nat}

namespace Poking

structure Tracks (w : Poking) : Prop where
  good : w.kernel.Good
  fits : ∀ id op, w.kernel.ops id = some op → (w.calls id).Fits w.kernel id op
  /-- A call that is over has put its frames and returned, a write its length if it copied and an
  error otherwise. -/
  over_ : ∀ id kind, (w.calls id).asked = some kind → w.kernel.ops id = none →
    (w.calls id).pins = [] ∧ ∃ answer, (w.calls id).returned = some answer ∧
      (kind.pokes = true → answer = .ok kind.size ∧ (w.calls id).copies = 1 ∨
        ∃ errno, answer = .error errno ∧ (w.calls id).copies = 0)
  sized : ∀ id kind, (w.calls id).asked = some kind → kind.Sized
  fresh : ∀ id, w.kernel.opNext < id → (w.calls id).asked = none

variable {w w' : Poking}

theorem noted_other (other : a.opId ≠ some id)
    (old : (∃ kind, a = .opBegin kind) → id ≠ w.kernel.opNext + 1) :
    w.noted k' reply a id = w.calls id := by
  have apart (own : Nat) (same : a.opId = some own) : id ≠ own := by
    rintro rfl
    exact other same
  cases a with
  | opBegin kind => exact update_of_ne (old ⟨kind, rfl⟩) ..
  | opReserve own | opCheck own | opWrite own => exact update_of_ne (apart own rfl) ..
  | opEnd own =>
    simp only [noted]
    split
    · exact update_of_ne (apart own rfl) ..
    · rfl
  | _ => rfl

/-- An operation runs a section of its own only while it is under way, and ends with its last
release. -/
theorem own_found (ran : step k a = some (k', reply)) (own : a.opId = some id) :
    (∃ op op', k.ops id = some op ∧ k'.ops id = some op') ∨
    (a = .opEnd id ∧ k'.ops id = none ∧
      ∃ kind todo result, k.ops id = some ⟨kind, todo, [], .ending result⟩) := by
  cases step_ops ran with
  | untouched idle => cases idle.symm.trans own
  | begun begins =>
    rw [begins] at own
    cases own
  | changed own' found _ ops =>
    cases own'.symm.trans own
    exact .inl ⟨_, _, found, by rw [ops, update_self]⟩
  | ended ends found ops =>
    rw [ends] at own
    cases own
    exact .inr ⟨ends, by rw [ops, update_self], _, _, _, found⟩

theorem Tracks.own (tracks : w.Tracks) {op' : LocalOp} (own : a.opId = some id)
    (found : w.kernel.ops id = some op) (ran : step w.kernel a = some (k', reply))
    (found' : k'.ops id = some op') (unpinned : ∀ gup, a ≠ .opPin id gup) :
    (w.noted k' reply a id).Fits k' id op' := by
  have fits := tracks.fits id op found
  cases a with
  | opReserve other nomem =>
    cases own
    simp only [noted, update_self]
    exact fits.reserve found ran found'
  | opCheck other taken =>
    cases own
    simp only [noted, update_self]
    exact fits.check found ran found'
  | opPin other gup =>
    cases own
    exact absurd rfl (unpinned gup)
  | opWrite other nomem =>
    cases own
    simp only [noted, update_self]
    exact fits.write tracks.good found ran found'
  | opEnd other =>
    cases own
    simp only [noted, found', Option.isNone_some]
    exact fits.release tracks.good found ran found'
  | _ => cases own

theorem opNext_grows (ran : step k a = some (k', reply)) : k.opNext ≤ k'.opNext := by
  cases step_ops ran with
  | untouched _ _ next | changed _ _ _ _ next | ended _ _ _ next => exact Nat.le_of_eq next.symm
  | begun _ _ next =>
    rw [next]
    exact Nat.le_succ _

theorem Tracks.returns (tracks : w.Tracks)
    (found : w.kernel.ops id = some ⟨kind, todo, held, .ending result⟩) (poke : kind.pokes = true) :
    (⟨kind, todo, held, .ending result⟩ : LocalOp).returns = .ok kind.size ∧
        (w.calls id).copies = 1 ∨
      ∃ errno, (⟨kind, todo, held, .ending result⟩ : LocalOp).returns = .error errno ∧
        (w.calls id).copies = 0 := by
  have copies := (tracks.fits id _ found).ending result rfl poke
  cases result with
  | none => exact .inl ⟨rfl, copies⟩
  | some errno => exact .inr ⟨errno, rfl, copies⟩

theorem unzapped_spec (unzapped : w.unzapped (.section_ a) = true)
    (found : w.kernel.ops id = some op) (frames : List Nat) (at_ : op.pc = .pinned frames)
    (p : Page) (zaps : a.zaps p) : (w.kernel.pages p).entry ≠ some ⟨.guard id, false⟩ := by
  intro entry
  cases a with
  | zap mm first last =>
    obtain ⟨rfl, low, high⟩ := zaps
    have inRange : p.idx ∈ List.range' first (last + 1 - first) := by
      rw [List.mem_range'_1]
      omega
    have idle := List.all_eq_true.mp unzapped p.idx inRange
    obtain ⟨kind, todo, held, pc⟩ := op
    cases at_
    simp [entry, found] at idle
  | _ => cases zaps

theorem Tracks.begin_ (tracks : w.Tracks) (sized : kind.Sized)
    (ran : step w.kernel (.opBegin kind) = some (k', reply)) :
    (⟨k', w.noted k' reply (.opBegin kind)⟩ : Poking).Tracks := by
  have apart (id : Nat) (old : id ≠ w.kernel.opNext + 1) :
      w.noted k' reply (.opBegin kind) id = w.calls id ∧ k'.ops id = w.kernel.ops id :=
    ⟨noted_other (by simp [Act.opId]) fun _ => old,
      step_other_op ran (by simp [Act.opId]) fun _ => old⟩
  have here : w.noted k' reply (.opBegin kind) (w.kernel.opNext + 1) =
      { Call.unused with asked := some kind } := update_self ..
  have op : k'.ops (w.kernel.opNext + 1) = some ⟨kind, kind.pages, [], .reserving⟩ := by
    cases ran
    exact update_self ..
  have next : k'.opNext = w.kernel.opNext + 1 := by
    cases ran
    rfl
  refine ⟨tracks.good.step ran, ?_, ?_, ?_, ?_⟩
  · intro id op' found
    by_cases new : id = w.kernel.opNext + 1
    · subst new
      have same : op' = ⟨kind, kind.pages, [], .reserving⟩ := Option.some.inj (found.symm.trans op)
      subst same
      simp only [here]
      refine ⟨rfl, rfl, ?_, ?_, fun _ => rfl, fun _ => rfl, ?_, ?_, ?_, ?_⟩
      · intro p member
        simpa using member
      · intro p member
        cases member
      · intro late
        cases late
      · intro _ late
        cases late
      · intro _ late
        cases late
      · intro _ late
        cases late
    · obtain ⟨call, same⟩ := apart id new
      have before : w.kernel.ops id = some op' := same.symm.trans found
      simp only [call]
      refine (tracks.fits id op' before).other tracks.good before found ?_ ran
      intro _ _ _ zaps
      cases zaps
  · intro id kind' asked gone
    by_cases new : id = w.kernel.opNext + 1
    · subst new
      cases gone.symm.trans op
    · obtain ⟨call, same⟩ := apart id new
      simp only [call] at asked ⊢
      exact tracks.over_ id kind' asked (same.symm.trans gone)
  · intro id kind' asked
    by_cases new : id = w.kernel.opNext + 1
    · subst new
      simp only [here, Option.some.injEq] at asked
      rw [← asked]
      exact sized
    · simp only [(apart id new).1] at asked
      exact tracks.sized id kind' asked
  · intro id late
    have later : w.kernel.opNext + 1 < id := next ▸ late
    simp only [(apart id (Nat.ne_of_gt later)).1]
    exact tracks.fresh id (Nat.lt_of_succ_lt later)

/-- Calls and operations stay together through a section of a call that is under way, or of nobody,
when the call fits afterwards. -/
theorem Tracks.keep (tracks : w.Tracks) {calls : Nat → Call}
    (ran : step w.kernel a = some (k', reply)) (running : ¬ ∃ kind, a = .opBegin kind)
    (unzapped : w.unzapped (.section_ a) = true)
    (others : ∀ id, a.opId ≠ some id → calls id = w.calls id)
    (asked : ∀ id, (calls id).asked = (w.calls id).asked)
    (own : ∀ id op op', a.opId = some id → w.kernel.ops id = some op → k'.ops id = some op' →
      (calls id).Fits k' id op')
    (ends : ∀ id op, a = .opEnd id → w.kernel.ops id = some op → k'.ops id = none →
      calls id = { w.calls id with returned := some op.returns } ∧ (w.calls id).pins = []) :
    (⟨k', calls⟩ : Poking).Tracks := by
  have grows := opNext_grows ran
  have ops (id : Nat) (other : a.opId ≠ some id) : k'.ops id = w.kernel.ops id :=
    step_other_op ran other fun begins => absurd begins running
  refine ⟨tracks.good.step ran, ?_, ?_, ?_, ?_⟩
  · intro id op' found
    by_cases mine : a.opId = some id
    · rcases own_found ran mine with ⟨op, _, before, _⟩ | ⟨-, gone, -⟩
      · exact own id op op' mine before found
      · cases gone.symm.trans found
    · have before : w.kernel.ops id = some op' := (ops id mine).symm.trans found
      simp only [others id mine]
      exact (tracks.fits id op' before).other tracks.good before found
        (unzapped_spec unzapped before) ran
  · intro id kind made gone
    rw [asked] at made
    by_cases mine : a.opId = some id
    · rcases own_found ran mine with ⟨_, op', _, found⟩ | ⟨isEnd, -, kind', todo, result, found⟩
      · cases gone.symm.trans found
      · obtain ⟨call, put⟩ := ends id _ isEnd found gone
        have same : kind' = kind :=
          Option.some.inj ((tracks.fits id _ found).asked.symm.trans made)
        subst same
        simp only [call]
        exact ⟨put, _, rfl, tracks.returns found⟩
    · simp only [others id mine]
      exact tracks.over_ id kind made ((ops id mine).symm.trans gone)
  · intro id kind made
    rw [asked] at made
    exact tracks.sized id kind made
  · intro id late
    rw [asked]
    exact tracks.fresh id (Nat.lt_of_le_of_lt grows late)

theorem Tracks.run (tracks : w.Tracks) (ran : step w.kernel a = some (k', reply))
    (running : ¬ ∃ kind, a = .opBegin kind) (unzapped : w.unzapped (.section_ a) = true)
    (allowed : w.allows a = true) : (⟨k', w.noted k' reply a⟩ : Poking).Tracks := by
  refine tracks.keep ran running unzapped ?_ ?_ ?_ ?_
  · intro id other
    exact noted_other other fun begins => absurd begins running
  · intro id
    by_cases mine : a.opId = some id
    · cases a with
      | opReserve =>
        cases mine
        simp [noted, Call.reserves]
      | opCheck =>
        cases mine
        simp [noted]
      | opWrite =>
        cases mine
        simp only [noted, update_self, Call.writes]
        split <;> rfl
      | opEnd =>
        cases mine
        simp only [noted]
        split <;> simp
      | opPin => cases allowed
      | _ => cases mine
    · rw [noted_other mine fun begins => absurd begins running]
  · intro id op op' mine found found'
    refine tracks.own mine found ran found' ?_
    rintro gup rfl
    cases allowed
  · rintro id op rfl found gone
    refine ⟨?_, List.isEmpty_iff.mp allowed⟩
    simp [noted, gone, found]

theorem Tracks.gup (tracks : w.Tracks) {frames : Except Errno (List Nat)}
    (found : w.kernel.ops id = some op)
    (ran : step w.kernel (.opPin id (gupResult op.kind.pages.length frames)) = some (k', reply)) :
    (⟨k', update w.calls id { w.calls id with pins := gupPins frames }⟩ :
      Poking).Tracks := by
  refine tracks.keep ran (by simp) rfl ?_ ?_ ?_ ?_
  · intro other apart
    refine update_of_ne ?_ ..
    rintro rfl
    exact apart rfl
  · intro other
    by_cases same : other = id
    · subst same
      simp
    · simp [update_of_ne same]
  · intro other op' op'' mine before after
    cases mine
    cases before.symm.trans found
    rw [update_self]
    exact (tracks.fits id op found).pin found ran after
  · intro other op' isEnd
    cases isEnd

theorem Tracks.put (tracks : w.Tracks) {pins : List Nat}
    (found : w.kernel.ops id = some ⟨kind, todo, held, .ending result⟩) :
    (w.setCall id { w.calls id with pins := pins }).Tracks := by
  have fits := tracks.fits id _ found
  have apart (other : Nat) (away : other ≠ id) :
      (w.setCall id { w.calls id with pins := pins }).calls other = w.calls other :=
    update_of_ne away ..
  have here : (w.setCall id { w.calls id with pins := pins }).calls id =
      { w.calls id with pins := pins } := update_self ..
  have asked (other : Nat) : ((w.setCall id { w.calls id with pins := pins }).calls other).asked =
      (w.calls other).asked := by
    by_cases same : other = id
    · subst same
      rw [here]
    · rw [apart other same]
  refine ⟨tracks.good, ?_, ?_, ?_, ?_⟩
  · intro other op' before
    by_cases same : other = id
    · subst same
      cases before.symm.trans found
      rw [here]
      exact .at_end fits.asked fits.running fits.own fits.marked (fits.ending result rfl)
    · rw [apart other same]
      exact tracks.fits other op' before
  · intro other kind' made gone
    have away : other ≠ id := by
      rintro rfl
      cases gone.symm.trans found
    rw [asked] at made
    rw [apart other away]
    exact tracks.over_ other kind' made gone
  · intro other kind' made
    rw [asked] at made
    exact tracks.sized other kind' made
  · intro other late
    rw [asked]
    exact tracks.fresh other late

theorem run_ran (ran : w.run a = some w') : ∃ k' reply, step w.kernel a = some (k', reply) ∧
    w' = ⟨k', w.noted k' reply a⟩ := by
  obtain ⟨⟨k', reply⟩, stepped, rfl⟩ := Option.map_eq_some_iff.mp ran
  exact ⟨k', reply, stepped, rfl⟩

inductive Moves (w : Poking) : Label → Poking → Prop
  | answered {request : Option Mem} {nomem copied : Bool} {mm : Option Nat}
      {answer : Except Errno Nat} (returns : ctlMem request nomem copied mm = .returns answer) :
      Moves w (.poke request nomem copied mm) w
  | began {request : Option Mem} {nomem copied : Bool} {mm : Option Nat} {kind : OpKind}
      {k' : Kernel} {reply : Reply} (begins : ctlMem request nomem copied mm = .begins kind)
      (ran : step w.kernel (.opBegin kind) = some (k', reply)) :
      Moves w (.poke request nomem copied mm) ⟨k', w.noted k' reply (.opBegin kind)⟩
  | pinned {id : Nat} {frames : Except Errno (List Nat)} {op : LocalOp} {k' : Kernel}
      {reply : Reply} (found : w.kernel.ops id = some op)
      (ran : step w.kernel (.opPin id (gupResult op.kind.pages.length frames)) =
        some (k', reply)) :
      Moves w (.gup id frames)
        ⟨k', update w.calls id { w.calls id with pins := gupPins frames }⟩
  | puts {id frame : Nat} {rest : List Nat} {kind : OpKind} {todo held : List Page}
      {result : Option Errno}
      (found : w.kernel.ops id = some ⟨kind, todo, held, .ending result⟩)
      (pins : (w.calls id).pins = frame :: rest) :
      Moves w (.put id) (w.setCall id { w.calls id with pins := rest })
  | ran {a : Act} {k' : Kernel} {reply : Reply} (allowed : w.allows a = true)
      (ran : step w.kernel a = some (k', reply)) :
      Moves w (.section_ a) ⟨k', w.noted k' reply a⟩

theorem Step.moves (next : Step w label w') : w.Moves label w' := by
  cases label with
  | poke request nomem copied mm =>
    simp only [System.Computed, Poking.next] at next
    split at next
    · next answer returns =>
      cases next
      exact .answered returns
    · next kind begins =>
      obtain ⟨k', reply, ran, rfl⟩ := run_ran next
      exact .began begins ran
  | gup id frames =>
    obtain ⟨op, found, next⟩ := Option.bind_eq_some_iff.mp next
    split at next
    · obtain ⟨w₁, ran, rfl⟩ := Option.map_eq_some_iff.mp next
      obtain ⟨k', reply, stepped, rfl⟩ := run_ran ran
      exact .pinned found stepped
    · cases next
  | put id =>
    simp only [System.Computed, Poking.next] at next
    split at next
    · next found pins =>
      cases next
      exact .puts found pins
    · cases next
  | section_ a =>
    obtain ⟨allowed, ran⟩ := Option.ite_none_right_eq_some.mp next
    obtain ⟨k', reply, stepped, rfl⟩ := run_ran ran
    exact .ran allowed stepped

theorem Tracks.step (tracks : w.Tracks) (unzapped : w.unzapped label = true)
    (next : Step w label w') : w'.Tracks := by
  cases next.moves with
  | answered => exact tracks
  | @began request nomem copied mm kind k' reply begins ran =>
    have spec := ctlMem_spec request nomem copied mm
    rw [begins] at spec
    exact tracks.begin_ spec.1 ran
  | pinned found ran => exact tracks.gup found ran
  | puts found => exact tracks.put found
  | @ran a k' reply allowed ran =>
    by_cases begins : ∃ kind, a = .opBegin kind
    · obtain ⟨kind, rfl⟩ := begins
      refine tracks.begin_ ?_ ran
      cases kind with
      | poke => cases allowed
      | land | take => trivial
    · exact tracks.run ran begins unzapped allowed

end Poking

end Vmctx.Custody
