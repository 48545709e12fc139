import Vmctx.Gate.Moves
import Vmctx.System.Run
/-!
# Runs of the gate

A run interleaves the steps of the controls with those of the task. The state carries, beside the
context, what has happened so far: the tickets that were accepted, committed and retired, the calls
that were admitted and dispatched, the results, and the answers that were copied out.
-/

namespace Vmctx.Gate

abbrev Entry := Nat × Int × List Nat

/-- A context and what its gate has done. -/
structure World where
  ctx : Context
  begun : List Nat
  committed : List Nat
  admitted : List Entry
  dispatched : List Entry
  finals : List (Nat × SysCall × Int)
  retired : List Nat
  answers : List GateReply
  deriving DecidableEq

inductive Act
  | enter (arg : Option GateRequest) (authorized : Bool)
  | advance (fault : Bool)
  | otherEnter (assist : Option Nat)
  | otherReturn
  | task (a : TaskAct)
  deriving DecidableEq, Repr

namespace World

def new (service : Bool) : World := ⟨.new service, [], [], [], [], [], [], []⟩

def copied : Option Answer → List GateReply
  | some (.ok (some reply)) => [reply]
  | _ => []

def control (w : World) (c : Context) (answer : Option Answer) : World :=
  { w with
    ctx := c
    begun := if c.gate.ticket = w.ctx.gate.ticket then w.begun else c.gate.ticket :: w.begun
    committed :=
      if c.gate.state = .running ∧ w.ctx.gate.state ≠ .running then
        c.gate.ticket :: w.committed
      else w.committed
    answers := copied answer ++ w.answers }

def tasked (w : World) (c : Context) : TaskAct → World
  | .admits nr args => { w with ctx := c, admitted := (c.gate.ticket, nr, args) :: w.admitted }
  | .dispatch =>
    match c.task with
    | .dispatching nr args =>
      { w with ctx := c, dispatched := (c.gate.ticket, nr, args) :: w.dispatched }
    | _ => { w with ctx := c }
  | .complete _ _ _ =>
    { w with ctx := c, finals := (c.gate.ticket, c.gate.call, c.gate.dispatchRet) :: w.finals }
  | .retire =>
    if w.ctx.task = .retiring ∧ w.ctx.sysException = 3 then
      { w with ctx := c, retired := c.gate.ticket :: w.retired }
    else { w with ctx := c }
  | _ => { w with ctx := c }

def next (w : World) : Act → Option World
  | .enter arg authorized =>
    some (w.control (w.ctx.enter arg authorized).1 (w.ctx.enter arg authorized).2)
  | .advance fault => (w.ctx.advance fault).map fun out => w.control out.1 out.2
  | .otherEnter assist => (w.ctx.otherEnter assist).map fun c => { w with ctx := c }
  | .otherReturn => w.ctx.otherReturn.map fun c => { w with ctx := c }
  | .task a => (w.ctx.taskStep a).map fun c => w.tasked c a

end World

def Reached (service : Bool) : World → Prop :=
  System.Reach (System.Computed World.next) (World.new service)

/-! ## What a step does -/

inductive Move (w : World) : Act → World → Prop
  | turned {arg : Option GateRequest} {authorized : Bool} : Move w (.enter arg authorized) w
  | locks {rq : GateRequest} {authorized : Bool} (free : w.ctx.ctl = none) :
      Move w (.enter (some rq) authorized)
        { w with ctx := { w.ctx with ctl := some (.loaded rq w.ctx.gate.state) } }
  | controls {fault : Bool} {c : Context} {answer : Option Answer}
      (move : CtlMove w.ctx c answer) : Move w (.advance fault) (w.control c answer)
  | intrudes (free : w.ctx.ctl = none) :
      Move w (.otherEnter none) { w with ctx := { w.ctx with ctl := some .other } }
  | occupies {exception : Nat} (free : w.ctx.ctl = none) (other : exception < 3)
      (vacant : w.ctx.sysPending = false) (idle : w.ctx.assistNr = 0) :
      Move w (.otherEnter (some exception)) { w with ctx := { w.ctx with
        ctl := some .other
        sysException := exception
        sysDone := false
        sysPending := true } }
  | leaves (held : w.ctx.ctl = some .other) :
      Move w .otherReturn { w with ctx := { w.ctx with ctl := none } }
  | tasks {a : TaskAct} {c : Context} (move : TaskMove w.ctx a c) : Move w (.task a) (w.tasked c a)

theorem control_frame (w : World) {c : Context} {answer : Option Answer}
    (gate : c.gate = w.ctx.gate) :
    w.control c answer = { w with ctx := c, answers := World.copied answer ++ w.answers } := by
  have unmoved : ¬(w.ctx.gate.state = .running ∧ w.ctx.gate.state ≠ .running) :=
    fun both => both.2 both.1
  simp only [World.control, gate, if_pos, if_neg unmoved]

theorem next_moves {w w' : World} {a : Act} (step : w.next a = some w') : Move w a w' := by
  cases a with
  | enter arg authorized =>
    cases Option.some.inj step
    generalize entered : w.ctx.enter arg authorized = out
    obtain ⟨same, errno, answer⟩ | ⟨rq, rfl, free, answer, -, after⟩ := enter_moves entered
    · rw [same, answer, control_frame w rfl]
      exact .turned
    · have gate : out.1.gate = w.ctx.gate := by rw [after]
      rw [control_frame w gate, after, answer]
      exact .locks free
  | advance fault =>
    obtain ⟨⟨c, answer⟩, moved, rfl⟩ := Option.map_eq_some_iff.mp step
    exact .controls (advance_moves moved)
  | otherEnter assist =>
    obtain ⟨c, moved, rfl⟩ := Option.map_eq_some_iff.mp step
    cases assist with
    | none =>
      simp only [Context.otherEnter] at moved
      split at moved
      case isTrue => cases moved
      case isFalse free =>
        cases moved
        exact .intrudes (by simpa using (not_or.mp free).1)
    | some exception =>
      simp only [Context.otherEnter] at moved
      split at moved
      case isTrue => cases moved
      case isFalse free =>
        split at moved
        case isTrue => cases moved
        case isFalse vacant =>
          cases moved
          simp only [not_or, Classical.not_not, Bool.not_eq_true, Nat.not_le, ge_iff_le] at vacant
          exact .occupies (by simpa using (not_or.mp free).1) vacant.2.2 vacant.1 vacant.2.1
  | otherReturn =>
    obtain ⟨c, moved, rfl⟩ := Option.map_eq_some_iff.mp step
    simp only [Context.otherReturn] at moved
    split at moved
    case isTrue held =>
      cases moved
      exact .leaves held
    case isFalse => cases moved
  | task a =>
    obtain ⟨c, moved, rfl⟩ := Option.map_eq_some_iff.mp step
    exact .tasks (taskStep_moves moved)

end Vmctx.Gate
