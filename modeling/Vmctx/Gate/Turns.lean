import Vmctx.Gate.Steady
/-!
# The steps of the thread under a live task

Between its controls the thread takes up an answer, accounts for a birth, looks at the state and
replies. While no step fails it goes one of the ways listed here, and each of them keeps the gate
and the admission together. The reply under way is followed to the place where it is sent: what it
says there is what the executor relies on.
-/

namespace Vmctx.Gate

/-- A step of the thread outside the controls: the admission and the place it leads to. -/
inductive Turn (c : Conn) : ConnAct → Admission → ConnPc → Prop
  | refused {op : CallOp} {reply : CallReply} {errno : Errno} {snapshot : Except Errno MmBinding}
      (at_ : c.pc = .gotFirst op reply (.error errno)) :
      Turn c (.took snapshot) c.call (.sending { reply with state := c.call.waitState })
  | heard {op : CallOp} {reply : CallReply} {g : GateReply} {snapshot : Except Errno MmBinding}
      (at_ : c.pc = .gotFirst op reply (.ok (some g))) (facts : FirstFacts c.world c.call op g)
      (other : g.state ≠ .admitted) :
      Turn c (.took snapshot) (c.call.heard (some g)) (.birth reply)
  | observes {op : CallOp} {reply : CallReply} {g : GateReply} {snapshot : MmBinding}
      (at_ : c.pc = .gotFirst op reply (.ok (some g))) (facts : FirstFacts c.world c.call op g)
      (admitted : g.state = .admitted) (valid : snapshot.valid = true)
      (consistent : Consistent (c.call.heard (some g)) snapshot) :
      Turn c (.took (.ok snapshot)) ((c.call.heard (some g)).fix snapshot)
        (.birth { reply with
          prepareFlags := prepareFlagsOf ((c.call.heard (some g)).fix snapshot).admitted.1 })
  | prepares {reply : CallReply} {g : GateReply} {snapshot : MmBinding}
      (at_ : c.pc = .gotFirst .execute reply (.ok (some g)))
      (facts : FirstFacts c.world c.call .execute g) (admitted : g.state = .admitted)
      (valid : snapshot.valid = true)
      (consistent : Consistent (c.call.heard (some g)) snapshot) :
      Turn c (.took (.ok snapshot)) { (c.call.heard (some g)).fix snapshot with prepared := true }
        (.commit { reply with
          prepareFlags := prepareFlagsOf ((c.call.heard (some g)).fix snapshot).admitted.1 })
  | withheld {reply : CallReply} {errno : Errno}
      (at_ : c.pc = .gotCommit reply (.error errno)) : Turn c .tookCommit c.call (.birth reply)
  | commits {reply : CallReply} {g : GateReply} (at_ : c.pc = .gotCommit reply (.ok (some g)))
      (facts : CommitFacts c.world c.call g) :
      Turn c .tookCommit { c.call with gate := g, committed := true } (.birth reply)
  | barren {reply : CallReply} {outcome : Admission.Birth} (at_ : c.pc = .birth reply) :
      Turn c (.birth outcome) c.call (.state reply)
  | busy {reply : CallReply} (at_ : c.pc = .birth reply) (child : c.call.gate.childHostPid ≠ 0) :
      Turn c (.birth .busy) c.call (.sending { reply with state := .running })
  | childEnded {reply : CallReply} (at_ : c.pc = .birth reply) :
      Turn c (.birth .ended) { c.call with birthSeen := true } (.state reply)
  | publishes {reply : CallReply} {source : Nat} {binding shown : MmBinding}
      (at_ : c.pc = .birth reply) (child : c.call.gate.childHostPid ≠ 0) (named : source ≠ 0) :
      Turn c (.birth (.born source binding)) { c.call with birthSeen := true }
        (.state { reply with
          child := true
          childSource := source
          childBinding := shown
          childSharedMm := c.call.gate.childSharedMm })
  | tells {reply : CallReply} {s : CallState} (at_ : c.pc = .state reply)
      (state : s = .entering ∧ c.call.gate.state = .entering ∨
        s = .admitted ∧ c.call.gate.state = .admitted ∨
        s = .running ∧ c.call.gate.state = .running) :
      Turn c (.state none) c.call (.sending { reply with state := s })
  | finishes {reply : CallReply} (at_ : c.pc = .state reply)
      (complete : c.call.gate.state = .complete) (committed : c.call.committed = true) :
      Turn c (.state none) { c.call with active := false }
        (.complete { reply with state := .complete })
  | completes {reply : CallReply} (at_ : c.pc = .complete reply) :
      Turn c (.completion none) c.call (.sending { reply with data := true })
  | sends {reply : CallReply} (at_ : c.pc = .sending reply) : Turn c (.send true) c.call .idle

structure Turns (c : Conn) (a : ConnAct) (c' : Conn) : Prop where
  world : c'.world = c.world
  turn : Turn c a c'.call c'.pc
  log : ∀ e ∈ c.log, e ∈ c'.log

variable {c : Conn} {reply : CallReply}

theorem follow_log {part : Part} {e : Event} (old : e ∈ c.log) : e ∈ (c.follow part).log := by
  have noted : e ∈ ({ c with call := part.call }.note
      (part.effects.map (Effect.event c.call.gate.ticket))).log :=
    List.mem_append_right _ old
  simp only [Conn.follow]
  split
  case h_6 => exact List.mem_cons_of_mem _ noted
  all_goals exact noted

variable {answer : Answer} {op : CallOp} {a : ConnAct} {c' : Conn} {log : List Event} {pc : ConnPc}
  {g : GateReply} {reply' : CallReply} {snapshot : MmBinding} {call : Admission}

theorem took_turns {snapshot : Except Errno MmBinding} (steady : Steady c)
    (at_ : c.pc = .gotFirst op reply answer) (valid : Conn.snapshotValid snapshot = true)
    (sound : (ConnAct.took snapshot).Sound c) :
    Turns c (.took snapshot) (c.follow (c.call.afterFirst op reply answer snapshot)) := by
  have place := steady.at_ at_
  obtain ⟨snapshot, rfl, same⟩ := sound
  obtain ⟨g, rfl, facts⟩ | ⟨errno, rfl, transient⟩ := place.2
  · simp only [Admission.afterFirst]
    by_cases admitted : g.state = .admitted
    · have late : GateState.admitted.rank ≤ g.state.rank := Nat.le_of_eq (by rw [admitted])
      -- The binding stays and the gate shows one call, so the observations agree.
      have consistent : Consistent (c.call.heard (some g)) snapshot := by
        rintro ⟨set_, differs⟩
        have seen : c.call.admitted = (c.call.heard (some g)).seen :=
          (steady.fixed set_).2.2.trans (facts.shown late).1.symm
        exact differs.elim (fun other => other (same set_).symm) fun other => other seen
      have here : (c.call.heard (some g)).gate.state = .admitted := admitted
      rw [if_pos here]
      simp only [Admission.admittedPart, if_neg consistent]
      by_cases executes : op = .execute ∧ (c.call.heard (some g)).committed = false
      · rw [if_pos executes]
        obtain ⟨rfl, -⟩ := executes
        exact ⟨rfl, .prepares at_ facts admitted valid consistent, fun e => follow_log⟩
      · rw [if_neg executes]
        exact ⟨rfl, .observes at_ facts admitted valid consistent, fun e => follow_log⟩
    · have there : ¬(c.call.heard (some g)).gate.state = .admitted := admitted
      have late : ¬(op = .execute ∧ (c.call.heard (some g)).committed = false) :=
        fun asks => admitted (facts.asked asks.1 asks.2)
      rw [if_neg there, if_neg late]
      exact ⟨rfl, .heard at_ facts admitted, fun e => follow_log⟩
  · simp only [Admission.afterFirst, transient, if_true]
    exact ⟨rfl, .refused at_, fun e => follow_log⟩

theorem tookCommit_turns (steady : Steady c) (at_ : c.pc = .gotCommit reply answer) :
    Turns c .tookCommit ((c.note (Conn.returned c.call.gate.ticket answer)).follow
      (c.call.afterCommit reply answer)) := by
  have place := steady.at_ at_
  have noted (e : Event) (old : e ∈ c.log) :
      e ∈ (c.note (Conn.returned c.call.gate.ticket answer)).log :=
    List.mem_append_right _ old
  obtain ⟨g, rfl, facts⟩ | ⟨errno, rfl, transient⟩ := place
  · exact ⟨rfl, .commits at_ facts, fun e old => follow_log (noted e old)⟩
  · simp only [Admission.afterCommit, transient, if_true]
    exact ⟨rfl, .withheld at_, fun e old => follow_log (noted e old)⟩

theorem births_turns {outcome : Admission.Birth} (good : c.Good) (steady : Steady c)
    (at_ : c.pc = .birth reply) (sound : (ConnAct.birth outcome).Sound c) :
    Turns c (.birth outcome) (c.follow (c.call.birth reply outcome)) := by
  simp only [Admission.birth]
  by_cases none : c.call.birthSeen = true ∨ c.call.gate.childHostPid = 0
  · rw [if_pos none]
    exact ⟨rfl, .barren at_, fun e => follow_log⟩
  rw [if_neg none]
  have child : c.call.gate.childHostPid ≠ 0 := fun zero => none (.inr zero)
  cases outcome with
  | busy => exact ⟨rfl, .busy at_ child, fun e => follow_log⟩
  | failed errno => exact absurd rfl (sound errno).1
  | ended => exact ⟨rfl, .childEnded at_, fun e => follow_log⟩
  | born source binding =>
    -- A child comes after the `COMMIT`, and the binding was fixed before that.
    have account := good.ledger.books.account
    have committed := steady.argument.mpr (account.born child)
    have fixed := account.fixed (steady.released committed).2
    obtain ⟨named, shared⟩ := (sound .EPERM).2 source binding rfl
    have agrees : ¬(c.call.gate.childSharedMm = true ∧ binding.mm ≠ c.call.target.mm) :=
      fun differs => differs.2 (shared differs.1)
    simp only [fixed, Bool.true_eq_false, if_false, if_neg agrees]
    exact ⟨rfl, .publishes at_ child named, fun e => follow_log⟩

theorem states_turns (good : c.Good) (steady : Steady c) (at_ : c.pc = .state reply) :
    Turns c (.state none) (c.follow (c.call.finish reply none)) := by
  have standing := good.ledger.at_ at_
  have active := standing.1.active
  simp only [Admission.finish]
  cases state : c.call.gate.state with
  | none => exact absurd state (steady.real active)
  | entering => exact ⟨rfl, .tells at_ (.inl ⟨rfl, state⟩), fun e => follow_log⟩
  | admitted => exact ⟨rfl, .tells at_ (.inr (.inl ⟨rfl, state⟩)), fun e => follow_log⟩
  | running => exact ⟨rfl, .tells at_ (.inr (.inr ⟨rfl, state⟩)), fun e => follow_log⟩
  | complete =>
    have committed : c.call.committed = true := by
      rw [steady.argument, state]
      decide
    have set_ : ¬c.call.committed = false := by simp [committed]
    simp only [if_neg set_]
    exact ⟨rfl, .finishes at_ state committed, fun e => follow_log⟩

def ConnAct.own : ConnAct → Bool
  | .took _ | .tookCommit | .birth _ | .state _ | .completion _ | .failure _ | .send _ => true
  | _ => false

theorem connMove_turns (good : c.Good) (steady : Steady c) (own : a.own = true) (sound : a.Sound c)
    (move : ConnMove c a c') : Turns c a c' := by
  have place := steady.place
  cases move with
  | surrounds outside => cases a <;> cases outside <;> cases own
  | requested | firstTurned | firstEnters | commitTurned | commitEnters | advances
  | firstReturns | commitReturns => cases own
  | took at_ valid => exact took_turns steady at_ valid sound
  | tookCommit at_ => exact tookCommit_turns steady at_
  | births at_ => exact births_turns good steady at_ sound
  | states at_ =>
    cases sound
    exact states_turns good steady at_
  | completes at_ => exact ⟨rfl, .completes at_, fun _ => id⟩
  | spoils | cut => cases sound
  | failure at_ =>
    rw [at_] at place
    exact place.elim
  | sends at_ => exact ⟨rfl, .sends at_, fun _ => List.mem_cons_of_mem _⟩

/-! ## The gate and the admission -/

theorem Steady.goes (steady : Steady c) (calm : ¬Releasing c.world c.pc)
    (place : Place c.world c.call pc) : Steady { c with pc := pc, log := log } :=
  steady.still rfl rfl ⟨rfl, rfl, rfl⟩ (fun window => absurd window calm) place

theorem Steady.heard (steady : Steady c) (at_ : c.pc = .gotFirst op reply (.ok (some g)))
    (facts : FirstFacts c.world c.call op g) :
    Steady { c with call := c.call.heard (some g), pc := .birth reply', log := log } := by
  have calm : ¬Releasing c.world c.pc := by
    rw [at_]
    exact id
  exact { steady with
    ticket := .inl facts.current
    unreleased := fun active flag old => absurd (steady.unreleased active flag old) calm
    waits := by
      intro active flag seen
      refine .inl ⟨?_, rfl⟩
      obtain admitted | prepared := seen
      · exact (facts.early flag).2 admitted
      · exact ((steady.waits active flag (.inr prepared)).resolve_right calm).1
    argument := by
      refine ⟨facts.late, fun late => ?_⟩
      cases flag : c.call.committed with
      | true => exact flag
      | false => exact absurd late (Nat.not_le_of_lt (facts.early flag).1)
    real := fun _ => facts.real
    child := facts.child
    place := trivial }

/-- The first observation of `ADMITTED` fixes the binding and the call. -/
theorem Steady.fix (steady : Steady c) (at_ : c.pc = .birth reply)
    (current : c.world.ctx.gate.ticket = c.call.next)
    (late : GateState.admitted.rank ≤ c.world.ctx.gate.state.rank)
    (shown : c.call.seen = c.world.shown) :
    Steady { c with call := c.call.fix snapshot, pc := .birth reply', log := log } := by
  have calm : ¬Releasing c.world c.pc := by
    rw [at_]
    exact id
  have moved : Steady { c with pc := .birth reply', log := log } := steady.goes calm trivial
  by_cases set_ : c.call.target.valid = true
  · rw [fix_eq set_]
    exact moved
  · have unset : c.call.target.valid = false := by simpa using set_
    rw [fix_new unset]
    exact { moved with fixed := fun _ => ⟨current, late, shown⟩ }

theorem Steady.prepare (steady : Steady c) (at_ : c.pc = .birth reply)
    (admitted : c.call.gate.state = .admitted) :
    Steady { c with
      call := { c.call with prepared := true }
      pc := .commit reply'
      log := log } := by
  have calm : ¬Releasing c.world c.pc := by
    rw [at_]
    exact id
  have moved : Steady { c with pc := .commit reply', log := log } := steady.goes calm trivial
  exact { moved with
    released := fun flag => ⟨(steady.released flag).1, rfl⟩
    waits := fun active flag _ => moved.waits active flag (.inl admitted) }

theorem turns_steady (good : c.Good) (steady : Steady c) (turns : Turns c a c') : Steady c' := by
  obtain ⟨world, call, pc, log⟩ := c'
  obtain ⟨same, turn, -⟩ := turns
  cases same
  have goes {pc' : ConnPc} (at_ : c.pc = pc') (calm : ¬Releasing c.world pc')
      (place : Place c.world c.call pc) : Steady ⟨c.world, c.call, pc, log⟩ :=
    steady.goes (by rw [at_]; exact calm) place
  have standing := good.ledger.standing
  have telling := good.native.telling
  cases turn with
  | refused at_ | busy at_ | tells at_ | completes at_ | sends at_ | barren at_ =>
    exact goes at_ id trivial
  | heard at_ facts other => exact steady.heard at_ facts
  | @observes op reply g snapshot at_ facts admitted valid consistent =>
    have late : GateState.admitted.rank ≤ g.state.rank := Nat.le_of_eq (by rw [admitted])
    have shown := facts.shown late
    have heard : Steady ⟨c.world, c.call.heard (some g), .birth reply, log⟩ :=
      steady.heard at_ facts
    exact heard.fix rfl facts.current shown.2 shown.1
  | @prepares reply g snapshot at_ facts admitted valid consistent =>
    have late : GateState.admitted.rank ≤ g.state.rank := Nat.le_of_eq (by rw [admitted])
    have shown := facts.shown late
    have heard : Steady ⟨c.world, c.call.heard (some g), .birth reply, log⟩ :=
      steady.heard at_ facts
    have fixed : Steady ⟨c.world, (c.call.heard (some g)).fix snapshot, .birth reply, log⟩ :=
      heard.fix rfl facts.current shown.2 shown.1
    have gate := (@fix_same (c.call.heard (some g)) snapshot).2.1
    exact fixed.prepare rfl ((congrArg GateReply.state gate).trans admitted)
  | withheld at_ => exact goes at_ (fun ⟨_, ok⟩ => nomatch ok) trivial
  | @commits reply g at_ facts =>
    rw [at_] at standing telling
    have past := (telling g rfl).committed facts.late
    exact { steady with
      unreleased := nofun
      released := fun _ => ⟨past, standing.1.ready⟩
      waits := nofun
      argument := ⟨fun _ => facts.late, fun _ => rfl⟩
      real := fun _ => facts.real
      child := facts.child
      place := trivial }
  | childEnded at_ | publishes at_ =>
    have moved := goes at_ id trivial
    exact { moved with }
  | finishes at_ complete committed =>
    -- The `COMMIT` was of this ticket, so the gate has begun it.
    have past := good.native.good.committed_le (steady.released committed).1
    have current : c.world.ctx.gate.ticket = c.call.next := Nat.le_antisymm good.native.bound past
    have moved := goes at_ id trivial
    exact { moved with
      ticket := .inl current
      unreleased := nofun
      waits := nofun
      real := nofun }

/-! ## The reply under way -/

structure Drafted (call : Admission) (reply : CallReply) : Prop where
  plain : reply.data = false
  flags : reply.prepareFlags < 4
  preparation : call.gate.state = .admitted →
    call.target.valid = true ∧ reply.prepareFlags = prepareFlagsOf call.admitted.1
  child : reply.child = true →
    reply.childSource ≠ 0 ∧ call.committed = true ∧ isCloneNr call.admitted.1 = true

structure Told (call : Admission) (reply : CallReply) : Prop where
  live : reply.ended = false
  real : reply.state ≠ .none
  data : reply.data = true → reply.state = .complete
  flags : reply.prepareFlags < 4
  child : reply.child = true → reply.childSource ≠ 0 ∧ isCloneNr call.admitted.1 = true ∧
    call.committed = true ∧ (reply.state = .running ∨ reply.state = .complete)
  /-- `ADMITTED` comes before the `COMMIT`, and until the memory is prepared it asks for the
  preparation the call needs. -/
  admitted : reply.state = .admitted → call.committed = false ∧
    (call.gate.state = .admitted ∨ call.prepared = true) ∧
    (call.prepared = false →
      call.target.valid = true ∧ reply.prepareFlags = prepareFlagsOf call.admitted.1)
  running : reply.state = .running → call.committed = true

def Draft (call : Admission) : ConnPc → Prop
  | .first _ reply | .inFirst _ reply | .gotFirst _ reply _ =>
    reply.data = false ∧ reply.prepareFlags = 0
  | .commit reply | .inCommit reply | .gotCommit reply _ | .birth reply | .state reply
  | .complete reply => Drafted call reply
  | .sending reply => Told call reply
  | .idle | .failed _ _ | .closed => True

theorem prepareFlagsOf_lt (nr : Int) : prepareFlagsOf nr < 4 := by
  rw [prepareFlagsOf]
  split <;> decide

theorem refused_told (flags : reply.data = false ∧ reply.prepareFlags = 0)
    (childless : reply.child = false) (live : reply.ended = false) :
    Told c.call { reply with state := c.call.waitState } := by
  have child (some : reply.child = true) : False := absurd (childless.symm.trans some) (by decide)
  constructor
  case live => exact live
  case real =>
    simp only [Admission.waitState]
    split
    · exact nofun
    · split <;> exact nofun
  case data => exact fun data => absurd (flags.1.symm.trans data) (by decide)
  case flags => simp only [flags.2]; decide
  case child => exact fun some => (child some).elim
  case admitted =>
    intro state
    simp only [Admission.waitState] at state
    split at state
    · cases state
    case isFalse open_ =>
      split at state
      case isFalse => cases state
      case isTrue prepared =>
        refine ⟨by simpa using open_, .inr prepared, fun unprepared => ?_⟩
        exact absurd (unprepared.symm.trans prepared) (by decide)
  case running =>
    intro state
    simp only [Admission.waitState] at state
    split at state
    · assumption
    · split at state <;> cases state

theorem observed_drafted (plain : reply.data = false) (childless : reply.child = false)
    (valid : snapshot.valid = true) (consistent : Consistent (c.call.heard (some g)) snapshot)
    (target : call.target = ((c.call.heard (some g)).fix snapshot).target)
    (admitted : call.admitted = ((c.call.heard (some g)).fix snapshot).admitted) :
    Drafted call { reply with
      prepareFlags := prepareFlagsOf ((c.call.heard (some g)).fix snapshot).admitted.1 } where
  plain := plain
  flags := prepareFlagsOf_lt _
  preparation _ := by
    rw [target, admitted]
    exact ⟨(consistent.fixed valid).1, rfl⟩
  child some := absurd (childless.symm.trans some) (by decide)

theorem tells_told {s : CallState} (steady : Steady c) (draft : Drafted c.call reply)
    (live : reply.ended = false) (state : s = .entering ∧ c.call.gate.state = .entering ∨
      s = .admitted ∧ c.call.gate.state = .admitted ∨
      s = .running ∧ c.call.gate.state = .running) : Told c.call { reply with state := s } := by
  have argument := steady.argument
  have plain (data : reply.data = true) : False :=
    absurd (draft.plain.symm.trans data) (by decide)
  constructor
  case live => exact live
  case real =>
    obtain ⟨rfl, -⟩ | ⟨rfl, -⟩ | ⟨rfl, -⟩ := state <;> exact nofun
  case data => exact fun data => (plain data).elim
  case flags => exact draft.flags
  case child =>
    intro child
    obtain ⟨named, committed, clone⟩ := draft.child child
    have late := argument.mp committed
    refine ⟨named, clone, committed, .inl ?_⟩
    obtain ⟨-, early⟩ | ⟨-, early⟩ | ⟨same, -⟩ := state
    · rw [early] at late
      exact absurd late (by decide)
    · rw [early] at late
      exact absurd late (by decide)
    · exact same
  case admitted =>
    intro same
    obtain ⟨rfl, -⟩ | ⟨-, gate⟩ | ⟨rfl, -⟩ := state
    · cases same
    · have flag : c.call.committed = false := by
        cases set_ : c.call.committed with
        | false => rfl
        | true =>
          have late := argument.mp set_
          rw [gate] at late
          exact absurd late (by decide)
      exact ⟨flag, .inl gate, fun _ => draft.preparation gate⟩
    · cases same
  case running =>
    intro same
    obtain ⟨rfl, -⟩ | ⟨rfl, -⟩ | ⟨-, gate⟩ := state
    · cases same
    · cases same
    · exact argument.mpr (Nat.le_of_eq (congrArg GateState.rank gate.symm))

theorem turn_draft (good : c.Good) (steady : Steady c) (draft : Draft c.call c.pc)
    (turn : Turn c a call pc) : Draft call pc := by
  have standing := good.ledger.standing
  cases turn with
  | refused at_ =>
    rw [at_] at draft standing
    exact refused_told draft standing.1.child standing.1.live
  | heard at_ facts other =>
    rw [at_] at draft standing
    refine ⟨draft.1, ?_, fun admitted => absurd admitted other, fun child => ?_⟩
    · rw [draft.2]
      decide
    · exact absurd (standing.1.child.symm.trans child) (by decide)
  | observes at_ facts admitted valid consistent | prepares at_ facts admitted valid consistent =>
    rw [at_] at draft standing
    exact observed_drafted draft.1 standing.1.child valid consistent rfl rfl
  | withheld at_ | barren at_ =>
    rw [at_] at draft
    exact draft
  | commits at_ facts =>
    rw [at_] at draft standing
    refine ⟨draft.plain, draft.flags, fun admitted => ?_, fun child => ?_⟩
    · have late := facts.late
      rw [show _ = GateState.admitted from admitted] at late
      exact absurd late (by decide)
    · exact absurd (standing.1.child.symm.trans child) (by decide)
  | busy at_ child =>
    rw [at_] at draft standing
    have committed := steady.argument.mpr (good.ledger.books.account.born child)
    refine ⟨standing.2.live, nofun, fun data => ?_, draft.flags, fun some => ?_, nofun,
      fun _ => committed⟩
    · exact absurd (draft.plain.symm.trans data) (by decide)
    · exact absurd (standing.2.child.symm.trans some) (by decide)
  | childEnded at_ | finishes at_ =>
    rw [at_] at draft
    exact ⟨draft.plain, draft.flags, draft.preparation, draft.child⟩
  | publishes at_ child named =>
    rw [at_] at draft
    have account := good.ledger.books.account
    have committed := steady.argument.mpr (account.born child)
    have fixed := steady.fixed (account.fixed (steady.released committed).2)
    have clone : isCloneNr c.call.admitted.1 = true := by
      rw [fixed.2.2]
      exact steady.clone (steady.child child)
    exact ⟨draft.plain, draft.flags, draft.preparation, fun _ => ⟨named, committed, clone⟩⟩
  | tells at_ state =>
    rw [at_] at draft standing
    exact tells_told steady draft standing.2.2.2.1 state
  | completes at_ =>
    rw [at_] at draft standing
    have state := standing.2.2.2.2.2
    refine ⟨standing.2.2.2.1, fun none => ?_, fun _ => state, draft.flags, fun child => ?_,
      fun admitted => ?_, fun running => ?_⟩
    · cases state.symm.trans none
    · obtain ⟨named, committed, clone⟩ := draft.child child
      exact ⟨named, clone, committed, .inr state⟩
    · cases state.symm.trans admitted
    · cases state.symm.trans running
  | sends => trivial

/-! ## Every step -/

theorem enters_steady {rq : GateRequest} (steady : Steady c) (calm : ¬Releasing c.world c.pc)
    (place : Place { c.world with ctx := { c.world.ctx with
      ctl := some (.loaded rq c.world.ctx.gate.state) } } c.call pc) :
    Steady { c with
      world := { c.world with ctx := { c.world.ctx with
        ctl := some (.loaded rq c.world.ctx.gate.state) } }
      pc := pc
      log := log } :=
  steady.still rfl rfl ⟨rfl, rfl, rfl⟩ (fun window => absurd window calm) place

theorem connMove_steady (good : c.Good) (steady : Steady c)
    (answers : ∀ rq credit setcpu, a ≠ .request rq credit setcpu) (sound : a.Sound c)
    (prompt : ∀ fault reply rq told, a = .advance fault → c.pc = .inCommit reply →
      c.world.ctx.ctl = some (.settling rq told) → c.world.ctx.sysPending = false)
    (move : ConnMove c a c') : Steady c' := by
  by_cases own : a.own = true
  · exact turns_steady good steady (connMove_turns good steady own sound move)
  have place := steady.place
  have standing := good.ledger.standing
  have ticket := good.ledger.books.ticket
  have real (active : c.call.active = true) : c.call.gate.ticket ≠ 0 := by
    rw [ticket]
    exact (good.ledger.books.account.unfinished active).1
  cases move with
  | surrounds outside step => exact surrounds_steady good.native steady outside step sound
  | requested => exact absurd rfl (answers _ _ _)
  | firstTurned at_ refused =>
    cases sound
    rw [at_] at place standing
    have range : gateBegin ≤ c.call.firstOp ∧ c.call.firstOp ≤ gateCancel := by
      rw [Admission.firstOp]
      split <;> decide
    have transient := turned_transient steady (real standing.active) range refused
    exact steady.goes (by rw [at_]; exact id) ⟨place, .inr ⟨_, rfl, transient⟩⟩
  | firstEnters at_ free =>
    rw [at_] at place
    refine enters_steady steady (by rw [at_]; exact id) ⟨place, fun rq r here => ?_⟩
    obtain here | here := here <;> cases here
  | commitTurned at_ refused =>
    cases sound
    rw [at_] at standing
    have transient := turned_transient steady (real standing.active) (by decide) refused
    exact steady.goes (by rw [at_]; exact id) (.inr ⟨_, rfl, transient⟩)
  | commitEnters at_ free =>
    have calm : ¬Releasing c.world c.pc := by
      rw [at_]
      exact id
    rw [at_] at standing
    have waits := steady.waits standing.active standing.open_ (.inr standing.ready)
    have admitted := (waits.resolve_right calm).1
    refine enters_steady steady calm ⟨fun rq s here => ?_, fun moved => ?_, fun rq r here => ?_⟩
    · cases here
      exact admitted
    · exact absurd rfl (moved _ _)
    · obtain here | here := here <;> cases here
  | advances step at_ =>
    cases sound
    obtain ⟨op, reply, at_⟩ | ⟨reply, at_⟩ := at_
    · exact inFirst_steady good steady at_ (advance_moves step)
    · exact inCommit_steady good steady at_ (advance_moves step)
  | firstReturns at_ step =>
    cases sound
    exact firstReturns_steady good steady at_ step
  | commitReturns at_ step =>
    cases sound
    exact commitReturns_steady good steady at_ step fun rq told => prompt _ _ rq told rfl at_
  | took | tookCommit | births | states | completes | spoils | failure | sends | cut =>
    exact absurd rfl own

/-! ## The steps that are not the thread's own -/

def ConnPc.serves : ConnPc → Option CallOp
  | .first op _ | .inFirst op _ | .gotFirst op _ _ => some op
  | _ => none

def ConnPc.idles : ConnPc → Bool
  | .idle => true
  | _ => false

structure Drives (c c' : Conn) : Prop where
  call : c'.call = c.call
  log : ∀ e ∈ c.log, e ∈ c'.log
  serves : c'.pc.serves = c.pc.serves
  idles : c'.pc.idles = c.pc.idles
  draft : Draft c.call c.pc → Draft c.call c'.pc

theorem connMove_drives (own : a.own = false)
    (answers : ∀ rq credit setcpu, a ≠ .request rq credit setcpu) (move : ConnMove c a c') :
    Drives c c' := by
  cases move with
  | surrounds | advances => exact ⟨rfl, fun _ => id, rfl, rfl, id⟩
  | requested => exact absurd rfl (answers _ _ _)
  | firstTurned at_ | firstEnters at_ | firstReturns at_ | commitReturns at_ =>
    exact ⟨rfl, fun _ => id, by rw [at_]; rfl, by rw [at_]; rfl, by rw [at_]; exact id⟩
  | commitTurned at_ | commitEnters at_ =>
    exact ⟨rfl, fun _ => List.mem_cons_of_mem _, by rw [at_]; rfl, by rw [at_]; rfl,
      by rw [at_]; exact id⟩
  | took | tookCommit | births | states | completes | spoils | failure | sends | cut => cases own

theorem turn_busy (turn : Turn c a call pc) :
    c.pc.idles = false ∧
      (pc.idles = true → a = .send true ∧ call = c.call ∧ ∃ reply, c.pc = .sending reply) := by
  cases turn with
  | sends at_ => exact ⟨by rw [at_]; rfl, fun _ => ⟨rfl, rfl, _, at_⟩⟩
  | refused at_ | heard at_ | observes at_ | prepares at_ | withheld at_ | commits at_ | barren at_
  | busy at_ | childEnded at_ | publishes at_ | tells at_ | finishes at_ | completes at_ =>
    exact ⟨by rw [at_]; rfl, nofun⟩

/-- What a step of the thread does to what the executor knows of the call. -/
structure Follows (c : Conn) (call : Admission) (pc : ConnPc) : Prop where
  next : call.next = c.call.next
  prepared : call.prepared = true → c.call.prepared = true ∨ c.pc.serves = some .execute
  fixed : c.call.target.valid = true → call.target.valid = true ∧ call.admitted = c.call.admitted
  serves : pc.serves = none

theorem turn_follows (turn : Turn c a call pc) : Follows c call pc := by
  have fixed (g : GateReply) (snapshot : MmBinding) (set_ : c.call.target.valid = true) :
      ((c.call.heard (some g)).fix snapshot).target.valid = true ∧
        ((c.call.heard (some g)).fix snapshot).admitted = c.call.admitted := by
    have held : (c.call.heard (some g)).target.valid = true := set_
    rw [fix_eq held]
    exact ⟨set_, rfl⟩
  cases turn with
  | @observes op reply g snapshot =>
    have same := @fix_same (c.call.heard (some g)) snapshot
    exact ⟨same.1, fun flag => .inl (same.2.2.2.1 ▸ flag), fixed g snapshot, rfl⟩
  | @prepares reply g snapshot at_ =>
    have same := @fix_same (c.call.heard (some g)) snapshot
    exact ⟨same.1, fun _ => .inr (by rw [at_]; rfl), fixed g snapshot, rfl⟩
  | _ => exact ⟨rfl, .inl, fun set_ => ⟨set_, rfl⟩, rfl⟩

end Vmctx.Gate
