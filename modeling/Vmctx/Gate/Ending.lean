import Vmctx.Gate.Protocol
/-!
# The end of a call

Once the native call is complete, every step of the two ends brings the last reply nearer, unless a
control is refused for now. The distance is the place of the call, counted backwards from the
executor, with one more round while an answer under way was taken before the end.
-/

namespace Vmctx.Gate

/-! ## The distance to the last reply -/

def GateState.round (s : GateState) : Nat := if s = .complete then 0 else 21

def CallState.round (s : CallState) : Nat := if s = .complete then 0 else 21

def answerRound : Answer → Nat
  | .ok (some g) => g.state.round
  | _ => 21

def ctlRank : Option CtlPc → Nat
  | some (.loaded _ _) => 4
  | some (.answering _) => 3
  | some (.settling _ _) => 2
  | some (.childing _ r) => 1 + r.state.round
  | some (.copying _ r) => r.state.round
  | _ => 0

def connRank (c : Conn) : ConnPc → Nat
  | .idle | .failed _ _ | .closed => 0
  | .first _ _ => 18
  | .inFirst _ _ => 13 + ctlRank c.world.ctx.ctl
  | .gotFirst _ _ answer => 12 + answerRound answer
  | .commit _ => 11
  | .inCommit _ => 6 + ctlRank c.world.ctx.ctl
  | .gotCommit _ answer => 5 + answerRound answer
  | .birth _ => 4 + c.call.gate.state.round
  | .state _ => 3 + c.call.gate.state.round
  | .complete _ => 2
  | .sending reply => 1 + reply.state.round

def Link.rank (l : Link) : Nat :=
  match l.toExecutor, l.toSource with
  | some rs, _ => rs.state.round
  | none, some _ => 19
  | none, none => if l.conn.pc.idles then 20 else connRank l.conn l.conn.pc

def ConnAct.refuses (pc : ConnPc) : ConnAct → Bool
  | .enter _ | .advance _ =>
    match pc with
    | .gotFirst _ _ (.error _) | .gotCommit _ (.error _) => true
    | _ => false
  | .birth .busy => true
  | _ => false

def LinkAct.refuses (l : Link) : LinkAct → Bool
  | .conn a => a.refuses l.conn.pc
  | _ => false

variable {l : Link} {c : Conn}

theorem GateState.round_le (s : GateState) : s.round ≤ 21 := by
  rw [GateState.round]
  split <;> omega

theorem CallState.round_le (s : CallState) : s.round ≤ 21 := by
  rw [CallState.round]
  split <;> omega

theorem answerRound_le (answer : Answer) : answerRound answer ≤ 21 := by
  unfold answerRound
  split
  · exact GateState.round_le _
  · exact Nat.le_refl _

theorem ctlRank_le (ctl : Option CtlPc) : ctlRank ctl ≤ 22 := by
  unfold ctlRank
  split
  case h_4 rq r =>
    have bound := r.state.round_le
    omega
  case h_5 rq r =>
    have bound := r.state.round_le
    omega
  all_goals omega

theorem connRank_le (c : Conn) (pc : ConnPc) : connRank c pc ≤ 35 := by
  have gate := c.call.gate.state.round_le
  have ctl := ctlRank_le c.world.ctx.ctl
  cases pc with
  | gotFirst op reply answer | gotCommit reply answer =>
    have bound := answerRound_le answer
    simp only [connRank]
    omega
  | sending reply =>
    have bound := reply.state.round_le
    simp only [connRank]
    omega
  | _ =>
    simp only [connRank]
    omega

theorem Link.rank_le (l : Link) : l.rank ≤ 35 := by
  unfold Link.rank
  split
  case h_1 rs _ =>
    have bound := rs.state.round_le
    omega
  case h_2 => omega
  case h_3 =>
    split
    · omega
    · exact connRank_le l.conn l.conn.pc

/-! ## One step -/

def Conn.Completed (c : Conn) : Prop :=
  c.world.ctx.gate.state = .complete ∧ c.world.ctx.gate.ticket = c.call.next

variable {ctx : Context} {op : Nat} {pc : CtlPc} {a : ConnAct} {c' : Conn} {b : Act} {l' : Link}

theorem ctlMove_nears (good : c.Good) (completed : c.Completed) (held : c.world.ctx.ctl = some pc)
    (request : pc.request = some (c.call.request op)) (move : CtlMove c.world.ctx ctx none) :
    ctx.gate = c.world.ctx.gate ∧ ctlRank ctx.ctl < ctlRank c.world.ctx.ctl := by
  have holds := good.native.good.ctx.holds
  have telling := good.native.kids.telling
  have ticket : c.call.gate.ticket = c.world.ctx.gate.ticket :=
    good.ledger.books.ticket.trans completed.2.symm
  cases move with
  | began loaded _ next =>
    rw [loaded] at held
    cases held
    cases request
    have ahead : c.call.gate.ticket = c.world.ctx.gate.ticket + 1 := next
    omega
  | committed loaded =>
    rw [Context.Holds, loaded] at holds
    cases completed.1.symm.trans (holds rfl)
  | passed loaded =>
    rw [loaded]
    exact ⟨rfl, (by decide : (3 : Nat) < 4)⟩
  | found loaded =>
    rw [loaded]
    exact ⟨rfl, (by decide : (2 : Nat) < 3)⟩
  | looked loaded other => exact absurd completed.1 other
  | @settled rq r loaded =>
    rw [loaded] at telling ⊢
    have state : r.state = .complete := telling.2.2.1
    simp only [ctlRank, state]
    exact ⟨trivial, by decide⟩
  | childless loaded | child loaded =>
    rw [loaded]
    simp only [ctlRank]
    exact ⟨trivial, by omega⟩

theorem ctlMove_told {answer : Answer} (held : c.world.ctx.ctl = some pc)
    (request : pc.request = some (c.call.request op)) (live : op ≠ gateCancel)
    (move : CtlMove c.world.ctx ctx (some answer)) :
    (∃ errno, answer = .error errno) ∨
      answerRound answer = ctlRank c.world.ctx.ctl := by
  cases move with
  | refused | unretired | lost => exact .inl ⟨_, rfl⟩
  | cancelled loaded cancels =>
    rw [loaded] at held
    cases held
    cases request
    exact absurd cancels live
  | answered copying =>
    rw [copying]
    exact .inr rfl

structure Nears (c : Conn) (a : ConnAct) (c' : Conn) : Prop where
  completed : c'.Completed
  nearer : a.refuses c'.pc = true ∨ connRank c' c'.pc < connRank c c.pc

theorem firstOp_live (call : Admission) : call.firstOp ≠ gateCancel := by
  rw [Admission.firstOp]
  split <;> decide

theorem Conn.Completed.control {pc : ConnPc} {answer : Option Answer} (completed : c.Completed)
    (gate : ctx.gate = c.world.ctx.gate) :
    Conn.Completed { c with world := c.world.control ctx answer, pc } := by
  simpa only [Conn.Completed, World.control, gate] using completed

theorem control_nears (good : c.Good) (completed : c.Completed) (own : a.own = false)
    (inner : a.native = none) (answers : ∀ rq credit setcpu, a ≠ .request rq credit setcpu)
    (move : ConnMove c a c') : Nears c a c' := by
  cases move with
  | surrounds outside => cases inner.symm.trans outside
  | requested => exact absurd rfl (answers _ _ _)
  | firstTurned at_ | commitTurned at_ => exact ⟨completed, .inl rfl⟩
  | firstEnters at_ =>
    refine ⟨completed, .inr ?_⟩
    rw [at_]
    exact (by decide : (17 : Nat) < 18)
  | commitEnters at_ =>
    refine ⟨completed, .inr ?_⟩
    rw [at_]
    exact (by decide : (10 : Nat) < 11)
  | advances step at_ =>
    have moved := advance_moves step
    obtain ⟨op, reply, at_⟩ | ⟨reply, at_⟩ := at_
    all_goals
      obtain ⟨pc, held, request⟩ := good.native.at_ at_
      obtain ⟨gate, nearer⟩ := ctlMove_nears good completed held request moved
      refine ⟨completed.control gate, .inr ?_⟩
      simp only [at_, connRank, World.control]
      omega
  | firstReturns at_ step =>
    have moved := advance_moves step
    obtain ⟨pc, held, request⟩ := good.native.at_ at_
    refine ⟨completed.control (ctlMove_returns moved).2, ?_⟩
    obtain ⟨errno, rfl⟩ | same := ctlMove_told held request (firstOp_live _) moved
    · exact .inl rfl
    · refine .inr ?_
      simp only [at_, connRank, same]
      omega
  | commitReturns at_ step =>
    have moved := advance_moves step
    obtain ⟨pc, held, request⟩ := good.native.at_ at_
    refine ⟨completed.control (ctlMove_returns moved).2, ?_⟩
    obtain ⟨errno, rfl⟩ | same := ctlMove_told held request (by decide) moved
    · exact .inl rfl
    · refine .inr ?_
      simp only [at_, connRank, same]
      omega
  | took | tookCommit | births | states | completes | spoils | failure | sends | cut => cases own

theorem turn_nears {call : Admission} {pc : ConnPc} {log : List Event} (good : c.Good)
    (turn : Turn c a call pc) :
    a.refuses pc = true ∨ connRank ⟨c.world, call, pc, log⟩ pc < connRank c c.pc := by
  have argument := c.call.gate.state.round_le
  cases turn with
  | busy => exact .inl rfl
  | refused at_ =>
    have bound := c.call.waitState.round_le
    refine .inr ?_
    simp only [at_, connRank, answerRound]
    omega
  | heard at_ =>
    refine .inr ?_
    simp only [at_, connRank, answerRound, Admission.heard, Option.getD_some]
    omega
  | @observes op reply g snapshot at_ =>
    have gate : ((c.call.heard (some g)).fix snapshot).gate = g :=
      (@fix_same (c.call.heard (some g)) snapshot).2.1
    refine .inr ?_
    simp only [at_, connRank, answerRound, gate]
    omega
  | @tells reply s at_ state =>
    have early : c.call.gate.state.round = 21 := by
      obtain ⟨-, same⟩ | ⟨-, same⟩ | ⟨-, same⟩ := state <;> rw [same] <;> rfl
    have bound := s.round_le
    refine .inr ?_
    simp only [at_, connRank, early]
    omega
  | completes at_ =>
    have standing := good.ledger.at_ at_
    have state := standing.2.2.2.2.2
    refine .inr ?_
    simp only [at_, connRank, CallState.round, state, if_true]
    omega
  | prepares at_ | withheld at_ | commits at_ | barren at_ | childEnded at_ | publishes at_
  | finishes at_ | sends at_ =>
    refine .inr ?_
    simp only [at_, connRank, answerRound]
    omega

theorem conn_nears (good : c.Good) (steady : Steady c) (completed : c.Completed)
    (inner : a.native = none) (answers : ∀ rq credit setcpu, a ≠ .request rq credit setcpu)
    (sound : a.Sound c) (move : ConnMove c a c') : Nears c a c' := by
  cases own : a.own with
  | false => exact control_nears good completed own inner answers move
  | true =>
    obtain ⟨world, call, pc, log⟩ := c'
    obtain ⟨same, turn, -⟩ := connMove_turns good steady own sound move
    cases same
    exact ⟨⟨completed.1, completed.2.trans (turn_follows turn).next.symm⟩, turn_nears good turn⟩

theorem surrounds_nears {w : World} (good : c.Good) (completed : c.Completed)
    (outside : a.native = some b) (step : c.world.next b = some w) :
    Conn.Completed { c with world := w } ∧
      connRank { c with world := w } c.pc = connRank c c.pc := by
  have kept := next_outside good.native.good outside step
  refine ⟨⟨kept.complete completed.1, kept.ticket.trans completed.2⟩, ?_⟩
  cases at_ : c.pc with
  | inFirst | inCommit =>
    have same := good.native.inside kept (by rw [at_]; rfl)
    simp only [connRank, same]
  | _ => rfl

/-! ## Steps of the link -/

structure Finished (l : Link) : Prop where
  completed : l.conn.Completed
  begun : ∀ rq, l.fwd.pc = .sends rq ∨ l.toSource = some rq → rq.op ≠ .prepare

theorem inner_busy (inner : a.native = none)
    (answers : ∀ rq credit setcpu, a ≠ .request rq credit setcpu) (move : ConnMove c a c') :
    c.pc.idles = false := by
  cases move with
  | surrounds outside => cases inner.symm.trans outside
  | requested => exact absurd rfl (answers _ _ _)
  | advances _ at_ => obtain ⟨op, reply, at_⟩ | ⟨reply, at_⟩ := at_ <;> rw [at_] <;> rfl
  | firstTurned at_ | firstEnters at_ | commitTurned at_ | commitEnters at_ | firstReturns at_
  | commitReturns at_ | took at_ | tookCommit at_ | births at_ | states at_ | completes at_
  | spoils at_ | failure at_ | sends at_ | cut at_ =>
    rw [at_]
    rfl

theorem conn_link_nears (good : l.Good) (inner : a.native = none)
    (answers : ∀ rq credit setcpu, a ≠ .request rq credit setcpu) (sound : a.Sound l.conn)
    (move : ConnMove l.conn a c') (nearer : connRank c' c'.pc < connRank l.conn l.conn.pc) :
    Link.rank { l with conn := c', toExecutor := (l.outgoing a).or l.toExecutor } < l.rank := by
  have busy := inner_busy inner answers move
  obtain ⟨-, sent, silent, -⟩ := good.phase.served busy
  have before : l.rank = connRank l.conn l.conn.pc := by
    simp only [Link.rank, sent, silent, busy, Bool.false_eq_true, if_false]
  rw [before, silent, Option.or_none]
  cases idles : c'.pc.idles with
  | false =>
    have quiet : l.outgoing a = none := by
      refine outgoing_none (.inl ?_)
      rintro rfl
      cases move with
      | surrounds outside => cases outside
      | sends => cases idles
    simp only [Link.rank, quiet, sent, idles, Bool.false_eq_true, if_false]
    exact nearer
  | true =>
    cases own : a.own with
    | false =>
      have drives := connMove_drives own answers move
      exact absurd (busy.symm.trans (drives.idles.symm.trans idles)) (by decide)
    | true =>
      have turns := connMove_turns good.conn good.steady own sound move
      obtain ⟨rfl, -, reply, at_⟩ := (turn_busy turns.turn).2 idles
      simp only [Link.rank, Link.outgoing, at_, connRank]
      omega

theorem Incoming.nears {rs : CallReply} (incoming : Incoming l.fwd l.conn rs)
    (steady : Steady l.conn) :
    (l.fwd.receive rs).pc = .rests ∨ rs.state.round = 21 ∧
      ∃ op, op ≠ .prepare ∧ (l.fwd.receive rs).pc = .sends (.follow op rs.ticket) := by
  have noted : (l.fwd.noted rs).ticket = rs.ticket := by
    simp only [Forward.noted, Forward.published]
    split <;> rfl
  rw [incoming.receives steady]
  by_cases complete : rs.state = .complete
  · rw [if_pos complete]
    exact .inl rfl
  rw [if_neg complete]
  refine .inr ⟨if_neg complete, ?_⟩
  by_cases admitted : rs.state = .admitted
  · rw [if_pos admitted]
    refine ⟨.execute, by decide, ?_⟩
    have same : ((l.fwd.noted rs).prepares rs).ticket = rs.ticket := by
      rw [Forward.prepares]
      split <;> exact noted
    rw [Forward.asks, same]
  · rw [if_neg admitted]
    refine ⟨.poll, by decide, ?_⟩
    rw [Forward.asks, noted]

theorem protocol_nears {a : LinkAct} (good : l.Good) (finished : Finished l)
    (protocol : a.protocol = true) (sound : LinkAct.Sound l a) (step : l.next a = some l') :
    l'.fwd.pc = .rests ∨
      Finished l' ∧ (a.refuses l' = true ∨ l'.rank < l.rank) := by
  have phase := good.phase
  cases a with
  | begin => cases protocol
  | send =>
    simp only [Link.next] at step
    split at step
    case h_2 => cases step
    case h_1 rq at_ =>
      cases step
      simp only [Phase, at_] at phase
      obtain ⟨sent, silent, idle, -⟩ := phase
      refine .inr ⟨⟨finished.completed, fun rq' here => ?_⟩, .inr ?_⟩
      · obtain here | here := here
        · cases here
        · cases here
          exact finished.begun rq (.inl at_)
      · simp only [Link.rank, silent, sent, idle, if_true]
        omega
  | deliver credit setcpu =>
    obtain ⟨rfl, rfl⟩ := sound
    simp only [Link.next] at step
    split at step
    case h_2 => cases step
    case h_1 rq sent =>
      obtain ⟨c, moved, rfl⟩ := Option.map_eq_some_iff.mp step
      cases Conn.next_moves moved with
      | surrounds outside => cases outside
      | requested at_ =>
        obtain ⟨waits, silent, idle, opening | continuing⟩ := phase.request sent
        · exact absurd opening.request.1 (finished.begun rq (.inr sent))
        · rw [continuing.accepted good.conn]
          refine .inr ⟨⟨finished.completed, fun rq' here => ?_⟩, .inr ?_⟩
          · obtain here | here := here
            · cases waits.symm.trans here
            · cases here
          · simp only [Link.rank, silent, sent]
            exact (by decide : (18 : Nat) < 19)
  | conn a =>
    obtain ⟨answers, c, moved, rfl⟩ := link_conn step
    have inner : a.native = none := by simpa [LinkAct.protocol] using protocol
    have move := Conn.next_moves moved
    obtain ⟨completed, nearer⟩ :=
      conn_nears good.conn good.steady finished.completed inner answers sound move
    exact .inr ⟨⟨completed, finished.begun⟩,
      nearer.imp id (conn_link_nears good inner answers sound move)⟩
  | receive =>
    simp only [Link.next] at step
    split at step
    case h_2 => cases step
    case h_1 rs told =>
      cases step
      obtain ⟨-, sent, idle, incoming⟩ := phase.reply told
      refine (incoming.nears good.steady).imp id fun goes => ?_
      obtain ⟨round, op, other, here⟩ := goes
      refine ⟨⟨finished.completed, fun rq asked => ?_⟩, .inr ?_⟩
      · obtain asked | asked := asked
        · cases here.symm.trans asked
          exact other
        · cases sent.symm.trans asked
      · simp only [Link.rank, sent, told, idle, if_true, round]
        omega

theorem surrounds_link (good : l.Good) (finished : Finished l) (outside : a.native = some b)
    (step : l.next (.conn a) = some l') : Finished l' ∧ l'.rank = l.rank := by
  obtain ⟨answers, c, moved, rfl⟩ := link_conn step
  have quiet : l.outgoing a = none := by
    refine outgoing_none (.inl ?_)
    rintro rfl
    cases outside
  rw [quiet, Option.none_or]
  cases Conn.next_moves moved with
  | surrounds here next =>
    obtain ⟨completed, same⟩ := surrounds_nears good.conn finished.completed here next
    refine ⟨⟨completed, finished.begun⟩, ?_⟩
    simp only [Link.rank, same]
  | requested => exact absurd rfl (answers _ _ _)
  | _ => cases outside

theorem surrounds_prompt (l : Link) (outside : a.native = some b) : LinkAct.Prompt l (.conn a) := by
  cases a with
  | advance => cases outside
  | _ => trivial

theorem retired_answers {fault : Bool} (good : l.Good) (finished : Finished l)
    (retired : l.conn.world.ctx.sysPending = false)
    (sound : LinkAct.Sound l (.conn (.advance fault)))
    (step : l.next (.conn (.advance fault)) = some l') :
    LinkAct.refuses l' (.conn (.advance fault)) = false := by
  obtain ⟨-, c, moved, rfl⟩ := link_conn step
  cases sound
  have ticket : l.conn.call.gate.ticket = l.conn.world.ctx.gate.ticket :=
    good.conn.ledger.books.ticket.trans finished.completed.2.symm
  -- The operation of a control is refused for its ticket, or for a call that has not been admitted.
  have succeeds {op : Nat} {s : GateState} {errno : Errno} (real : op = gateCommit → s = .admitted)
      (acted : l.conn.world.ctx.act (l.conn.call.request op) s = .error errno) : False := by
    have same : (l.conn.call.request op).ticket = l.conn.world.ctx.gate.ticket := ticket
    simp only [Context.act, same, ne_eq, not_true_eq_false, and_false, if_false] at acted
    split at acted
    case isTrue commits =>
      rw [real commits] at acted
      cases acted
    case isFalse => cases acted
  have told {ctx : Context} {op : Nat} {pc : CtlPc} {answer : Answer}
      (next : l.conn.world.ctx.advance false = some (ctx, some answer))
      (held : l.conn.world.ctx.ctl = some pc)
      (request : pc.request = some (l.conn.call.request op))
      (real : ∀ rq s, l.conn.world.ctx.ctl = some (.loaded rq s) → op = gateCommit → s = .admitted)
      (errno : Errno) : answer ≠ .error errno := by
    rintro rfl
    cases advance_moves next with
    | refused loaded acted =>
      have admitted := real _ _ loaded
      rw [loaded] at held
      cases held
      cases request
      exact succeeds admitted acted
    | unretired _ pending => exact absurd (retired.symm.trans pending) (by decide)
    | lost copying => cases advance_copies next copying
  cases Conn.next_moves moved with
  | surrounds outside => cases outside
  | advances _ at_ =>
    obtain ⟨op, reply, at_⟩ | ⟨reply, at_⟩ := at_ <;>
      simp only [LinkAct.refuses, ConnAct.refuses, at_]
  | firstReturns at_ next =>
    obtain ⟨pc, held, request⟩ := good.conn.native.at_ at_
    have other : l.conn.call.firstOp ≠ gateCommit := by
      rw [Admission.firstOp]
      split <;> decide
    simp only [LinkAct.refuses, ConnAct.refuses]
    split
    case h_1 here =>
      cases here
      exact absurd rfl (told next held request (fun _ _ _ commits => absurd commits other) _)
    case h_2 here => cases here
    case h_3 => rfl
  | commitReturns at_ next =>
    have place := good.steady.at_ at_
    obtain ⟨pc, held, request⟩ := good.conn.native.at_ at_
    simp only [LinkAct.refuses, ConnAct.refuses]
    split
    case h_1 here => cases here
    case h_2 here =>
      cases here
      exact absurd rfl (told next held request (fun rq s loaded _ => place.1 rq s loaded) _)
    case h_3 => rfl

/-! ## Walks -/

/-- The runs of a call in progress from a state on, with the number of the steps of its two ends and
of the refusals among them. -/
inductive Walk (start : Link) : Nat → Nat → Link → Prop
  | refl : Walk start 0 0 start
  | drifts {steps refusals : Nat} {l l' : Link} {a : ConnAct} {b : Act}
      (walk : Walk start steps refusals l) (busy : l.fwd.pc ≠ .rests) (outside : a.native = some b)
      (allowed : LinkAct.Sound l (.conn a)) (step : l.next (.conn a) = some l') :
      Walk start steps refusals l'
  | steps {steps refusals : Nat} {l l' : Link} {a : LinkAct} (walk : Walk start steps refusals l)
      (busy : l.fwd.pc ≠ .rests) (protocol : a.protocol = true)
      (allowed : LinkAct.Sound l a ∧ LinkAct.Prompt l a) (step : l.next a = some l') :
      Walk start (steps + 1) (refusals + if a.refuses l' then 1 else 0) l'

theorem walk_bound {last : Link} {steps refusals : Nat} (good : l.Good) (finished : Finished l)
    (walk : Walk l steps refusals last) :
    last.Good ∧ (last.fwd.pc = .rests ∧ steps ≤ 36 * (refusals + 1) ∨
      Finished last ∧ steps + last.rank ≤ 35 + 36 * refusals) := by
  induction walk with
  | refl =>
    refine ⟨good, .inr ⟨finished, ?_⟩⟩
    have bound := l.rank_le
    omega
  | drifts walk busy outside allowed step ih =>
    obtain ⟨good, ⟨rests, -⟩ | ⟨finished, bound⟩⟩ := ih
    · exact absurd rests busy
    · obtain ⟨finished', same⟩ := surrounds_link good finished outside step
      refine ⟨link_keeps good ⟨allowed, surrounds_prompt _ outside⟩ step, .inr ⟨finished', ?_⟩⟩
      omega
  | @steps p r m m' a walk busy protocol allowed step ih =>
    obtain ⟨good, ⟨rests, -⟩ | ⟨finished, bound⟩⟩ := ih
    · exact absurd rests busy
    refine ⟨link_keeps good allowed step, ?_⟩
    have near := protocol_nears good finished protocol allowed.1 step
    have far := m'.rank_le
    obtain rests | ⟨finished', refused | nearer⟩ := near
    · refine .inl ⟨rests, ?_⟩
      split <;> omega
    · refine .inr ⟨finished', ?_⟩
      rw [if_pos refused]
      omega
    · refine .inr ⟨finished', ?_⟩
      split <;> omega

end Vmctx.Gate
