import Vmctx.Gate.Kernel
/-!
# What a step of the gate can do

Every step of a control and of the task, with what holds before it and the state it leaves. The
invariants of the gate are read off these two relations; the functions of the model are not unfolded
again.
-/

namespace Vmctx.Gate

inductive CtlMove (c : Context) : Context → Option Answer → Prop
  | refused {rq : GateRequest} {s : GateState} {errno : Errno} (at_ : c.ctl = some (.loaded rq s))
      (acted : c.act rq s = .error errno) :
      CtlMove c { c with ctl := none } (some (.error errno))
  | began {rq : GateRequest} {s : GateState} (at_ : c.ctl = some (.loaded rq s))
      (op : rq.op = gateBegin) (next : rq.ticket = c.gate.ticket + 1)
      (free : c.sysPending = false) (idle : c.assistNr = 0) (ready : c.serviceReady = true) :
      CtlMove c { c with
        gate := .begin rq.ticket
        sysException := 3
        sysDone := false
        sysPending := true
        ctl := some (.answering rq) } none
  | committed {rq : GateRequest} (at_ : c.ctl = some (.loaded rq .admitted))
      (op : rq.op = gateCommit) (same : rq.ticket = c.gate.ticket) :
      CtlMove c { c with
        gate := { c.gate with state := .running }
        ctl := some (.answering rq) } none
  | passed {rq : GateRequest} {s : GateState} (at_ : c.ctl = some (.loaded rq s))
      (same : rq.ticket = c.gate.ticket) (live : rq.op ≠ gateCancel)
      (unmoved : rq.op = gateCommit → s ≠ .entering ∧ s ≠ .admitted) :
      CtlMove c { c with ctl := some (.answering rq) } none
  | cancelled {rq : GateRequest} {s : GateState} (at_ : c.ctl = some (.loaded rq s))
      (op : rq.op = gateCancel) : CtlMove c { c with ctl := none } (some (.ok none))
  | found {rq : GateRequest} (at_ : c.ctl = some (.answering rq))
      (state : c.gate.state = .complete) :
      CtlMove c { c with ctl := some (.settling rq (c.reply rq)) } none
  | looked {rq : GateRequest} (at_ : c.ctl = some (.answering rq))
      (state : c.gate.state ≠ .complete) :
      CtlMove c { c with ctl := some (.childing rq (c.reply rq)) } none
  | unretired {rq : GateRequest} {r : GateReply} (at_ : c.ctl = some (.settling rq r))
      (pending : c.sysPending = true) (alive : c.dead = false) :
      CtlMove c { c with ctl := none } (some (.error .EAGAIN))
  | settled {rq : GateRequest} {r : GateReply} (at_ : c.ctl = some (.settling rq r))
      (final : c.sysPending = false ∨ c.dead = true) :
      CtlMove c { c with
        ctl := some (.childing rq
          { r with call := c.gate.call, dispatchRet := c.gate.dispatchRet }) } none
  | childless {rq : GateRequest} {r : GateReply} (at_ : c.ctl = some (.childing rq r))
      (absent : c.gate.childHostPid = 0) :
      CtlMove c { c with ctl := some (.copying rq r) } none
  | child {rq : GateRequest} {r : GateReply} (at_ : c.ctl = some (.childing rq r))
      (present : c.gate.childHostPid ≠ 0) :
      CtlMove c { c with
        ctl := some (.copying rq { r with
          childHostPid := c.gate.childHostPid
          childPid := c.gate.childPid
          childSharedMm := c.gate.childSharedMm }) } none
  | lost {rq : GateRequest} {r : GateReply} (at_ : c.ctl = some (.copying rq r)) :
      CtlMove c { c with ctl := none } (some (.error .EFAULT))
  | answered {rq : GateRequest} {r : GateReply} (at_ : c.ctl = some (.copying rq r)) :
      CtlMove c { c with ctl := none } (some (.ok (some r)))

variable {c c' : Context} {answer : Option Answer}

theorem act_moves {rq : GateRequest} {s : GateState} (acted : c.act rq s = .ok c') :
    (rq.op = gateBegin ∧ rq.ticket = c.gate.ticket + 1 ∧ c.sysPending = false ∧ c.assistNr = 0 ∧
      c.serviceReady = true ∧
      c' = { c with
        gate := .begin rq.ticket
        sysException := 3
        sysDone := false
        sysPending := true }) ∨
    (rq.op = gateCommit ∧ s = .admitted ∧ rq.ticket = c.gate.ticket ∧
      c' = { c with gate := { c.gate with state := .running } }) ∨
    (rq.ticket = c.gate.ticket ∧ (rq.op = gateCommit → s ≠ .entering ∧ s ≠ .admitted) ∧
      c' = c) := by
  simp only [Context.act, Context.begin] at acted
  split at acted
  case isTrue begins =>
    -- Each guard of a new ticket has to fail for `BEGIN` to be accepted.
    split at acted
    · cases acted
    split at acted
    · cases acted
    split at acted
    · cases acted
    split at acted
    · cases acted
    split at acted
    · cases acted
    simp only [not_or, Classical.not_not, Bool.not_eq_true, Bool.not_eq_false] at *
    cases acted
    refine .inl ⟨begins.1, ?_, ?_, ?_, ?_, rfl⟩ <;> simp_all
  case isFalse repeats =>
    split at acted
    · cases acted
    case isFalse same =>
      have same : rq.ticket = c.gate.ticket := Classical.not_not.mp same
      split at acted
      case isTrue commits =>
        split at acted
        · cases acted
        case isFalse entered =>
          split at acted
          case isTrue admitted =>
            cases acted
            exact .inr (.inl ⟨commits, admitted, same, rfl⟩)
          case isFalse passed =>
            cases acted
            exact .inr (.inr ⟨same, fun _ => ⟨entered, passed⟩, rfl⟩)
      case isFalse other =>
        cases acted
        exact .inr (.inr ⟨same, fun commits => absurd commits other, rfl⟩)

theorem advance_moves {fault : Bool} (step : c.advance fault = some (c', answer)) :
    CtlMove c c' answer := by
  simp only [Context.advance] at step
  split at step
  case h_1 rq s at_ =>
    split at step
    case h_1 errno acted =>
      cases step
      exact .refused at_ acted
    case h_2 after acted =>
      obtain ⟨op, next, free, idle, ready, rfl⟩ | ⟨op, rfl, same, rfl⟩ | ⟨same, unmoved, rfl⟩ :=
        act_moves acted
      · rw [if_neg (by rw [op]; decide)] at step
        cases step
        exact .began at_ op next free idle ready
      · rw [if_neg (by rw [op]; decide)] at step
        cases step
        exact .committed at_ op same
      · split at step
        case isTrue op =>
          cases step
          exact .cancelled at_ op
        case isFalse live =>
          cases step
          exact .passed at_ same live unmoved
  case h_2 rq at_ =>
    split at step <;> cases step
    case isTrue state => exact .found at_ state
    case isFalse state => exact .looked at_ state
  case h_3 rq reply at_ =>
    split at step <;> cases step
    case isTrue early => exact .unretired at_ early.1 early.2
    case isFalse final =>
      refine .settled at_ ?_
      by_cases pending : c.sysPending = true
      · exact .inr (by simpa [pending] using final)
      · exact .inl (by simpa using pending)
  case h_4 rq reply at_ =>
    split at step <;> cases step
    case isTrue absent => exact .childless at_ absent
    case isFalse present => exact .child at_ present
  case h_5 rq reply at_ =>
    cases step
    cases fault
    · exact .answered at_
    · exact .lost at_
  case h_6 => cases step

inductive TaskMove (c : Context) : TaskAct → Context → Prop
  | ready (at_ : c.task = .parked) : TaskMove c .ready { c with serviceReady := true }
  | enters {nr : Int} (at_ : c.task = .parked) (pending : c.sysPending = true)
      (gated : c.sysException = 3) :
      TaskMove c (.start nr) { c with assistNr := nr, task := .entered }
  | assists {nr : Int} (at_ : c.task = .parked) (pending : c.sysPending = true)
      (other : c.sysException ≠ 3) :
      TaskMove c (.start nr) { c with assistNr := nr, task := .assisting }
  | admits {nr : Int} {args : List Nat} (at_ : c.task = .entered) :
      TaskMove c (.admits nr args) { c with
        assistNr := nr
        gate := { c.gate with
          call := { c.gate.call with nr := nr, args := args }
          state := .admitted }
        task := .waiting nr args }
  | dispatches {nr : Int} {args : List Nat} (at_ : c.task = .waiting nr args)
      (released : c.gate.state ≠ .admitted) (wanted : nr ≠ -1) :
      TaskMove c .dispatch { c with task := .dispatching nr args }
  | skips {args : List Nat} (at_ : c.task = .waiting (-1) args)
      (released : c.gate.state ≠ .admitted) : TaskMove c .dispatch { c with task := .skipping }
  | births {nr : Int} {args : List Nat} {hostPid pid : Nat} {shared : Bool}
      (at_ : c.task = .dispatching nr args) (named : hostPid ≠ 0)
      (first : c.gate.childHostPid = 0) (running : c.gate.state = .running) :
      TaskMove c (.birth hostPid pid shared) { c with
        gate := { c.gate with childHostPid := hostPid, childPid := pid, childSharedMm := shared } }
  | unpublished {nr : Int} {args : List Nat} {hostPid pid : Nat} {shared : Bool}
      (at_ : c.task = .dispatching nr args) (idle : c.gate.state ≠ .running) :
      TaskMove c (.birth hostPid pid shared) c
  | returns {ret : Int}
      (at_ : (∃ nr args, c.task = .dispatching nr args) ∨ c.task = .skipping) :
      TaskMove c (.returned ret)
        { c with gate := { c.gate with dispatchRet := ret }, task := .dispatched }
  | completes {ret : Int} {changed : Nat} {regs : List Nat} (at_ : c.task = .dispatched) :
      TaskMove c (.complete ret changed regs) { c with
        gate := { c.gate with
          call := { c.gate.call with ret := ret, changed := changed, regs := regs }
          state := .complete }
        task := .completed }
  | clears (at_ : c.task = .completed ∨ c.task = .assisted) :
      TaskMove c .retire { c with assistNr := 0, task := .retiring }
  | retires (at_ : c.task = .retiring) :
      TaskMove c .retire { c with sysDone := true, sysPending := false, task := .parked }
  | assisted (at_ : c.task = .assisting) : TaskMove c .assist { c with task := .assisted }
  | exits : TaskMove c .exit { c with task := .ended }
  | buries (at_ : c.task = .ended) : TaskMove c .bury { c with dead := true }

theorem taskStep_moves {a : TaskAct} (step : c.taskStep a = some c') : TaskMove c a c' := by
  cases a with
  | ready =>
    simp only [Context.taskStep] at step
    split at step
    case isTrue at_ =>
      cases step
      exact .ready at_
    case isFalse => cases step
  | start nr =>
    simp only [Context.taskStep, Context.start] at step
    split at step
    case isFalse => cases step
    case isTrue occupied =>
      cases step
      by_cases gated : c.sysException = 3
      · rw [if_pos gated]
        exact .enters occupied.1 occupied.2 gated
      · rw [if_neg gated]
        exact .assists occupied.1 occupied.2 gated
  | admits nr args =>
    simp only [Context.taskStep, Context.admits] at step
    split at step
    case isTrue at_ =>
      cases step
      exact .admits at_
    case isFalse => cases step
  | dispatch =>
    simp only [Context.taskStep, Context.dispatch] at step
    split at step
    case h_2 => cases step
    case h_1 nr args at_ =>
      split at step
      case isTrue => cases step
      case isFalse released =>
        split at step <;> cases step
        case isTrue skipped =>
          subst skipped
          exact .skips at_ released
        case isFalse wanted => exact .dispatches at_ released wanted
  | birth hostPid pid shared =>
    simp only [Context.taskStep, Context.birth] at step
    split at step
    case h_2 => cases step
    case h_1 nr args at_ =>
      split at step
      case isTrue => cases step
      case isFalse fresh =>
        simp only [not_or, Classical.not_not] at fresh
        split at step <;> cases step
        case isTrue running => exact .births at_ fresh.1 fresh.2 running
        case isFalse idle => exact .unpublished at_ idle
  | returned ret =>
    simp only [Context.taskStep, Context.returned] at step
    split at step <;> cases step
    case h_1 nr args at_ => exact .returns (.inl ⟨nr, args, at_⟩)
    case h_2 at_ => exact .returns (.inr at_)
  | complete ret changed regs =>
    simp only [Context.taskStep, Context.complete] at step
    split at step
    case isTrue at_ =>
      cases step
      exact .completes at_
    case isFalse => cases step
  | retire =>
    simp only [Context.taskStep, Context.retire] at step
    split at step <;> cases step
    case h_1 at_ => exact .clears (.inl at_)
    case h_2 at_ => exact .clears (.inr at_)
    case h_3 at_ => exact .retires at_
  | assist =>
    simp only [Context.taskStep] at step
    split at step
    case isTrue at_ =>
      cases step
      exact .assisted at_
    case isFalse => cases step
  | exit =>
    cases step
    exact .exits
  | bury =>
    simp only [Context.taskStep] at step
    split at step
    case isTrue at_ =>
      cases step
      exact .buries at_
    case isFalse => cases step

theorem enter_moves {arg : Option GateRequest} {authorized : Bool}
    (step : c.enter arg authorized = (c', answer)) :
    (c' = c ∧ ∃ errno, answer = some (.error errno)) ∨
    (∃ rq, arg = some rq ∧ c.ctl = none ∧ answer = none ∧ rq.ticket ≠ 0 ∧
      c' = { c with ctl := some (.loaded rq c.gate.state) }) := by
  simp only [Context.enter] at step
  split at step
  · cases step
    exact .inl ⟨rfl, _, rfl⟩
  case isFalse free =>
    split at step
    · cases step
      exact .inl ⟨rfl, _, rfl⟩
    case h_2 rq =>
      split at step
      · cases step
        exact .inl ⟨rfl, _, rfl⟩
      case isFalse formed =>
        split at step
        · cases step
          exact .inl ⟨rfl, _, rfl⟩
        split at step
        · cases step
          exact .inl ⟨rfl, _, rfl⟩
        · cases step
          refine .inr ⟨rq, rfl, ?_, rfl, ?_, rfl⟩
          · simpa using free
          · exact fun zero => formed (.inr (.inr (.inr (.inl zero))))

end Vmctx.Gate
