import Vmctx.Gate.Phases
/-!
# The record of a ticket

The history of a gate as its tickets see it: a ticket begins once, is admitted, committed and
completed in that order and at most once each, and what the gate shows of it is what was recorded
last. Six moves of the record cover every step of a control and of the task.
-/

namespace Vmctx.Gate

/-- What the gate shows of its ticket, with the history of all tickets. -/
structure Record where
  ticket : Nat
  state : GateState
  call : SysCall
  dispatchRet : Int
  begun : List Nat
  committed : List Nat
  admitted : List Entry
  finals : List (Nat × SysCall × Int)

def World.record (w : World) : Record :=
  ⟨w.ctx.gate.ticket, w.ctx.gate.state, w.ctx.gate.call, w.ctx.gate.dispatchRet, w.begun,
    w.committed, w.admitted, w.finals⟩

inductive RecordMove (r : Record) : Record → Prop
  | rests : RecordMove r r
  | begins : RecordMove r { r with
      ticket := r.ticket + 1
      state := .entering
      call := .zero
      dispatchRet := 0
      begun := (r.ticket + 1) :: r.begun }
  | admits {nr : Int} {args : List Nat} (at_ : r.state = .entering) : RecordMove r { r with
      state := .admitted
      call := { r.call with nr := nr, args := args }
      admitted := (r.ticket, nr, args) :: r.admitted }
  | commits (at_ : r.state = .admitted) : RecordMove r { r with
      state := .running
      committed := r.ticket :: r.committed }
  | returns {ret : Int} (at_ : r.state = .running) : RecordMove r { r with dispatchRet := ret }
  | completes {ret : Int} {changed : Nat} {regs : List Nat} (at_ : r.state = .running) :
      RecordMove r { r with
        state := .complete
        call := { r.call with ret := ret, changed := changed, regs := regs }
        finals := (r.ticket, { r.call with ret := ret, changed := changed, regs := regs },
          r.dispatchRet) :: r.finals }

variable {answer : Option Answer} {c : Context} {w : World} {bound : GateState} {r r' : Record}
  {tickets : List Nat}

theorem control_record (w : World) (gate : c.gate = w.ctx.gate) :
    RecordMove w.record (w.control c answer).record := by
  have same : (w.control c answer).record = w.record := by
    rw [control_frame w gate]
    simp only [World.record, gate]
  rw [same]
  exact .rests

theorem ctlMove_record (good : w.ctx.Good) (move : CtlMove w.ctx c answer) :
    RecordMove w.record (w.control c answer).record := by
  cases move with
  | began at_ op next free idle ready =>
    simp only [World.control, World.record, SyscallGate.begin, next, Nat.add_eq_left,
      Nat.one_ne_zero, if_false, reduceCtorEq, false_and]
    exact .begins
  | committed at_ op same =>
    have holds := good.holds
    rw [Context.Holds, at_] at holds
    have admitted := holds rfl
    have waits : w.ctx.gate.state ≠ .running := by
      rw [admitted]
      decide
    simp only [World.control, World.record, waits, if_true, ne_eq, not_false_eq_true, and_self]
    exact .commits admitted
  | _ => exact control_record w rfl

theorem taskMove_record {a : TaskAct} (good : w.ctx.Good) (move : TaskMove w.ctx a c) :
    RecordMove w.record (w.tasked c a).record := by
  cases move with
  | admits at_ => exact .admits (good.fits.at_task at_).2.2
  | returns at_ =>
    refine .returns ?_
    obtain ⟨nr, args, at_⟩ | at_ := at_
    · exact (good.fits.at_task at_).2.2.1
    · exact (good.fits.at_task at_).2.2
  | completes at_ => exact .completes (good.fits.at_task at_).2.2
  | clears at_ | retires at_ =>
    simp only [World.tasked]
    split <;> exact .rests
  | _ => exact .rests

theorem next_record {w' : World} {a : Act} (good : w.ctx.Good) (step : w.next a = some w') :
    RecordMove w.record w'.record := by
  cases next_moves step with
  | controls move => exact ctlMove_record good move
  | tasks move => exact taskMove_record good move
  | _ => exact .rests

/-! ## The history of the tickets -/

def countdown : Nat → List Nat
  | 0 => []
  | n + 1 => (n + 1) :: countdown n

/-- A list of ticket numbers that is at most the current one, and below it before a state. -/
def Upto (r : Record) (bound : GateState) (tickets : List Nat) : Prop :=
  ∀ t ∈ tickets, t ≤ r.ticket ∧ (r.state.rank < bound.rank → t < r.ticket)

/-- The tickets that were admitted, committed and completed, as far as the gate's state tells. -/
structure Recorded (r : Record) : Prop where
  /-- Tickets are numbered from one. -/
  numbered : r.begun = countdown r.ticket
  /-- No ticket after the current one was admitted, nor that one before `ADMITTED`. -/
  admittedUpto : Upto r .admitted (r.admitted.map Prod.fst)
  /-- Each was admitted once. -/
  admittedOnce : (r.admitted.map Prod.fst).Nodup
  /-- From `ADMITTED` on, the current one was, with the call in the gate. -/
  admittedNow : GateState.admitted.rank ≤ r.state.rank →
    (r.ticket, r.call.nr, r.call.args) ∈ r.admitted
  /-- The same of `COMMIT` and `RUNNING`. -/
  committedUpto : Upto r .running r.committed
  /-- Each was committed once. -/
  committedOnce : r.committed.Nodup
  /-- From `RUNNING` on, the current one was. -/
  committedNow : GateState.running.rank ≤ r.state.rank → r.ticket ∈ r.committed
  /-- The same of results and `COMPLETE`. -/
  finalsUpto : Upto r .complete (r.finals.map Prod.fst)
  /-- Each has one set of results. -/
  finalsOnce : (r.finals.map Prod.fst).Nodup
  /-- In `COMPLETE` the current one has those in the gate. -/
  finalsNow : r.state = .complete → (r.ticket, r.call, r.dispatchRet) ∈ r.finals

section

variable (upto : Upto r bound tickets)
include upto

theorem Upto.fresh (early : r.state.rank < bound.rank) : r.ticket ∉ tickets :=
  fun present => Nat.lt_irrefl _ ((upto _ present).2 early)

theorem Upto.begins (ticket : r'.ticket = r.ticket + 1) : Upto r' bound tickets := by
  intro t present
  have := (upto t present).1
  omega

theorem Upto.grows (ticket : r'.ticket = r.ticket) (later : r.state.rank ≤ r'.state.rank) :
    Upto r' bound tickets := by
  intro t present
  have := upto t present
  omega

theorem Upto.cons (ticket : r'.ticket = r.ticket) (reached : bound.rank ≤ r'.state.rank) :
    Upto r' bound (r.ticket :: tickets) := by
  intro t present
  obtain rfl | old := List.mem_cons.mp present
  · omega
  · have := (upto t old).1
    omega

end

theorem recordMove_recorded (good : Recorded r) (move : RecordMove r r') : Recorded r' := by
  cases move with
  | rests => exact good
  | begins =>
    have unadmitted : ¬GateState.admitted.rank ≤ GateState.entering.rank := by decide
    have unreleased : ¬GateState.running.rank ≤ GateState.entering.rank := by decide
    exact {
      numbered := congrArg (List.cons _) good.numbered
      admittedUpto := good.admittedUpto.begins rfl
      admittedOnce := good.admittedOnce
      admittedNow := fun late => absurd late unadmitted
      committedUpto := good.committedUpto.begins rfl
      committedOnce := good.committedOnce
      committedNow := fun late => absurd late unreleased
      finalsUpto := good.finalsUpto.begins rfl
      finalsOnce := good.finalsOnce
      finalsNow := nofun }
  | admits at_ =>
    have early : r.state.rank < GateState.admitted.rank := by rw [at_]; decide
    have later : r.state.rank ≤ GateState.admitted.rank := Nat.le_of_lt early
    have unreleased : ¬GateState.running.rank ≤ GateState.admitted.rank := by decide
    exact {
      numbered := good.numbered
      admittedUpto := good.admittedUpto.cons rfl (Nat.le_refl _)
      admittedOnce := List.nodup_cons.mpr ⟨good.admittedUpto.fresh early, good.admittedOnce⟩
      admittedNow := fun _ => List.mem_cons_self
      committedUpto := good.committedUpto.grows rfl later
      committedOnce := good.committedOnce
      committedNow := fun late => absurd late unreleased
      finalsUpto := good.finalsUpto.grows rfl later
      finalsOnce := good.finalsOnce
      finalsNow := nofun }
  | commits at_ =>
    have early : r.state.rank < GateState.running.rank := by rw [at_]; decide
    have later : r.state.rank ≤ GateState.running.rank := Nat.le_of_lt early
    exact {
      numbered := good.numbered
      admittedUpto := good.admittedUpto.grows rfl later
      admittedOnce := good.admittedOnce
      admittedNow := fun _ => good.admittedNow (Nat.le_of_eq (by rw [at_]))
      committedUpto := good.committedUpto.cons rfl (Nat.le_refl _)
      committedOnce := List.nodup_cons.mpr ⟨good.committedUpto.fresh early, good.committedOnce⟩
      committedNow := fun _ => List.mem_cons_self
      finalsUpto := good.finalsUpto.grows rfl later
      finalsOnce := good.finalsOnce
      finalsNow := nofun }
  | returns at_ =>
    exact { good with finalsNow := fun late => nomatch at_.symm.trans late }
  | completes at_ =>
    have early : r.state.rank < GateState.complete.rank := by rw [at_]; decide
    have later : r.state.rank ≤ GateState.complete.rank := Nat.le_of_lt early
    exact {
      numbered := good.numbered
      admittedUpto := good.admittedUpto.grows rfl later
      admittedOnce := good.admittedOnce
      admittedNow := fun _ => good.admittedNow (by rw [at_]; decide)
      committedUpto := good.committedUpto.grows rfl later
      committedOnce := good.committedOnce
      committedNow := fun _ => good.committedNow (Nat.le_of_eq (by rw [at_]))
      finalsUpto := good.finalsUpto.cons rfl (Nat.le_refl _)
      finalsOnce := List.nodup_cons.mpr ⟨good.finalsUpto.fresh early, good.finalsOnce⟩
      finalsNow := fun _ => List.mem_cons_self }

end Vmctx.Gate
