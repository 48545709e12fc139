import Vmctx.Gate.History
/-!
# The phases of a call

Where the task stands decides which states the gate can be in: the task alone moves a ticket to
`ADMITTED` and to `COMPLETE`, and a control alone moves it to `RUNNING`, while the task waits. The
control that holds the lock relies on the state it loaded, and the task cannot spoil that.
-/

namespace Vmctx.Gate

def GateState.rests (s : GateState) : Prop := s = .none ∨ s = .complete

/-- The states of the gate and of the slot that a place of the task allows. -/
def Context.FitsAt (c : Context) : TaskPc → Prop
  | .parked =>
    c.assistNr = 0 ∧ (c.sysPending = true ∧ c.sysException = 3 → c.gate.state = .entering) ∧
      (¬(c.sysPending = true ∧ c.sysException = 3) → c.gate.state.rests)
  | .entered => c.sysPending = true ∧ c.sysException = 3 ∧ c.gate.state = .entering
  | .waiting nr args =>
    c.sysPending = true ∧ c.sysException = 3 ∧
      (c.gate.state = .admitted ∨ c.gate.state = .running) ∧
      c.gate.call.nr = nr ∧ c.gate.call.args = args
  | .dispatching nr args =>
    c.sysPending = true ∧ c.sysException = 3 ∧ c.gate.state = .running ∧
      c.gate.call.nr = nr ∧ c.gate.call.args = args
  | .skipping | .dispatched =>
    c.sysPending = true ∧ c.sysException = 3 ∧ c.gate.state = .running
  | .completed => c.sysPending = true ∧ c.sysException = 3 ∧ c.gate.state = .complete
  | .assisting | .assisted =>
    c.sysPending = true ∧ c.sysException ≠ 3 ∧ c.gate.state.rests
  | .retiring =>
    c.sysPending = true ∧ c.assistNr = 0 ∧ c.gate.state.rests ∧
      (c.sysException = 3 → c.gate.state = .complete)
  | .ended => True

/-- The state of the gate and of the slot agree with where the task stands. -/
def Context.Fits (c : Context) : Prop := c.FitsAt c.task

variable {c c' : Context} {a : TaskAct}

theorem Context.Fits.at_task {pc : TaskPc} (fits : c.Fits) (at_ : c.task = pc) : c.FitsAt pc :=
  at_ ▸ fits

def Context.Undispatched (c : Context) : Prop :=
  match c.task with
  | .parked => c.sysPending = true ∧ c.sysException = 3
  | .entered | .waiting _ _ => True
  | _ => False

def Context.Holds (c : Context) : Prop :=
  match c.ctl with
  | some (.loaded _ s) => s = .admitted → c.gate.state = .admitted
  | some (.answering rq) | some (.childing rq _) | some (.copying rq _) =>
    rq.ticket = c.gate.ticket
  | some (.settling rq _) => rq.ticket = c.gate.ticket ∧ c.gate.state = .complete
  | _ => True

structure Context.Good (c : Context) : Prop where
  fits : c.Fits
  holds : c.Holds

theorem Context.Fits.free (fits : c.Fits) (free : c.sysPending = false) :
    c.task = .ended ∨ c.task = .parked ∧ c.gate.state.rests := by
  cases at_ : c.task with
  | parked => exact .inr ⟨rfl, (fits.at_task at_).2.2 (by simp [free])⟩
  | ended => exact .inl rfl
  | _ => exact absurd ((fits.at_task at_).1.symm.trans free) (by decide)

theorem Context.Fits.begin (fits : c.Fits) (free : c.sysPending = false) (idle : c.assistNr = 0)
    (ticket : Nat) (ctl : Option CtlPc) :
    Context.Fits { c with
      gate := .begin ticket
      sysException := 3
      sysDone := false
      sysPending := true
      ctl := ctl } := by
  rw [Context.Fits]
  obtain ended | ⟨parked, -⟩ := fits.free free
  · rw [ended]
    trivial
  · rw [parked]
    exact ⟨idle, fun _ => rfl, fun vacant => absurd ⟨rfl, rfl⟩ vacant⟩

theorem Context.Fits.commit (fits : c.Fits) (admitted : c.gate.state = .admitted)
    (ctl : Option CtlPc) :
    Context.Fits { c with gate := { c.gate with state := .running }, ctl := ctl } := by
  have here := fits
  rw [Context.Fits] at here ⊢
  cases at_ : c.task with
  | waiting nr args =>
    rw [at_] at here
    exact ⟨here.1, here.2.1, .inr rfl, here.2.2.2⟩
  | ended => trivial
  | parked =>
    rw [at_] at here
    by_cases occupied : c.sysPending = true ∧ c.sysException = 3
    · cases admitted.symm.trans (here.2.1 occupied)
    · have rests := here.2.2 occupied
      rw [admitted, GateState.rests] at rests
      obtain rests | rests := rests <;> cases rests
  | _ => simp_all [Context.FitsAt, GateState.rests]

theorem ctlMove_good {answer : Option Answer} (good : c.Good) (move : CtlMove c c' answer) :
    c'.Good := by
  have holds := good.holds
  cases move with
  | refused | cancelled | unretired | lost | answered => exact ⟨good.fits, trivial⟩
  | began at_ op next free idle ready => exact ⟨good.fits.begin free idle _ _, rfl⟩
  | committed at_ op same =>
    rw [Context.Holds, at_] at holds
    exact ⟨good.fits.commit (holds rfl) _, same⟩
  | passed at_ same => exact ⟨good.fits, same⟩
  | found at_ state =>
    rw [Context.Holds, at_] at holds
    exact ⟨good.fits, holds, state⟩
  | looked at_ state | childless at_ | child at_ =>
    rw [Context.Holds, at_] at holds
    exact ⟨good.fits, holds⟩
  | settled at_ final =>
    rw [Context.Holds, at_] at holds
    exact ⟨good.fits, holds.1⟩

theorem taskMove_fits (fits : c.Fits) (move : TaskMove c a c') : c'.Fits := by
  cases move with
  | ready | unpublished => exact fits
  | exits => trivial
  | buries at_ =>
    rw [Context.Fits, at_]
    trivial
  | assisted at_ => exact fits.at_task at_
  | enters at_ pending gated =>
    have fits := fits.at_task at_
    exact ⟨pending, gated, fits.2.1 ⟨pending, gated⟩⟩
  | assists at_ pending other =>
    have fits := fits.at_task at_
    exact ⟨pending, other, fits.2.2 (fun both => other both.2)⟩
  | admits at_ =>
    have fits := fits.at_task at_
    exact ⟨fits.1, fits.2.1, .inl rfl, rfl, rfl⟩
  | dispatches at_ released wanted =>
    have fits := fits.at_task at_
    exact ⟨fits.1, fits.2.1, fits.2.2.1.resolve_left released, fits.2.2.2⟩
  | skips at_ released =>
    have fits := fits.at_task at_
    exact ⟨fits.1, fits.2.1, fits.2.2.1.resolve_left released⟩
  | births at_ named first running =>
    have fits := fits.at_task at_
    rw [Context.Fits, at_]
    exact fits
  | returns at_ =>
    obtain ⟨nr, args, at_⟩ | at_ := at_
    · have fits := fits.at_task at_
      exact ⟨fits.1, fits.2.1, fits.2.2.1⟩
    · have fits := fits.at_task at_
      exact fits
  | completes at_ =>
    have fits := fits.at_task at_
    exact ⟨fits.1, fits.2.1, rfl⟩
  | clears at_ =>
    obtain at_ | at_ := at_
    · have fits := fits.at_task at_
      exact ⟨fits.1, rfl, .inr fits.2.2, fun _ => fits.2.2⟩
    · have fits := fits.at_task at_
      exact ⟨fits.1, rfl, fits.2.2, fun gated => absurd gated fits.2.1⟩
  | retires at_ =>
    have fits := fits.at_task at_
    exact ⟨fits.2.1, fun both => absurd both.1 Bool.false_ne_true, fun _ => fits.2.2.1⟩

theorem taskMove_keeps (fits : c.Fits) (move : TaskMove c a c') :
    c'.ctl = c.ctl ∧ c'.gate.ticket = c.gate.ticket ∧
      (c.gate.state = .admitted → c'.gate.state = .admitted) ∧
      (c.gate.state = .complete → c'.gate.state = .complete) := by
  cases move with
  | admits at_ =>
    have fits := fits.at_task at_
    exact ⟨rfl, rfl, fun _ => rfl, fun done => nomatch fits.2.2.symm.trans done⟩
  | completes at_ =>
    have fits := fits.at_task at_
    exact ⟨rfl, rfl, fun wait => (nomatch fits.2.2.symm.trans wait), fun _ => rfl⟩
  | _ => exact ⟨rfl, rfl, id, id⟩

theorem taskMove_good (good : c.Good) (move : TaskMove c a c') : c'.Good := by
  refine ⟨taskMove_fits good.fits move, ?_⟩
  obtain ⟨ctl, ticket, admitted, complete⟩ := taskMove_keeps good.fits move
  have holds := good.holds
  unfold Context.Holds at holds ⊢
  rw [ctl, ticket]
  split at holds
  case h_1 => exact fun loaded => admitted (holds loaded)
  case h_5 => exact ⟨holds.1, complete holds.2⟩
  all_goals exact holds

theorem next_good {w w' : World} {a : Act} (good : w.ctx.Good) (step : w.next a = some w') :
    w'.ctx.Good := by
  cases next_moves step with
  | turned => exact good
  | locks free => exact ⟨good.fits, id⟩
  | controls move => exact ctlMove_good good move
  | intrudes free | leaves held => exact ⟨good.fits, trivial⟩
  | occupies free other vacant idle =>
    refine ⟨?_, trivial⟩
    rw [Context.Fits]
    obtain ended | ⟨parked, rests⟩ := good.fits.free vacant
    · rw [ended]
      trivial
    · rw [parked]
      exact ⟨idle, fun both => absurd both.2 (Nat.ne_of_lt other), fun _ => rests⟩
  | tasks move =>
    have kept : ∀ (c : Context) (a : TaskAct), (w.tasked c a).ctx = c := by
      intro c a
      cases a <;> simp only [World.tasked] <;> split <;> rfl
    rw [kept]
    exact taskMove_good good move

end Vmctx.Gate
