import Vmctx.Gate.Exchange
/-!
# The protocol of a call

Along every run in which the task lives, its binding stays and every `COMMIT` that finds the call
complete finds its slot retired, `forward` takes none of its error exits and the source fails
nothing. The preparation is done once and before the first `EXECUTE`. Some end can always take a
step, and once the native call is complete the loop ends after a bounded number of them, counted
with the refusals on the way.
-/

namespace Vmctx.Gate

open Vmctx.System List

/-! ## What `forward` has done -/

def ForwardEvent.isPrepared : ForwardEvent → Bool
  | .prepared _ => true
  | _ => false

def ForwardEvent.isCompleted : ForwardEvent → Bool
  | .completed _ => true
  | _ => false

structure Orderly (done : List ForwardEvent) : Prop where
  once : done.countP ForwardEvent.isPrepared ≤ 1
  precedes : ∀ post pre, done = post ++ .sent .execute :: pre → ∃ flags, .prepared flags ∈ pre

structure Forward.Records (f : Forward) : Prop where
  orderly : Orderly f.done
  prepared : if f.prepared then ∃ flags, .prepared flags ∈ f.done
    else f.done.countP ForwardEvent.isPrepared = 0
  sends : ∀ rq, f.pc = .sends rq → rq.op = .execute → f.prepared = true
  open_ : f.pc ≠ .rests → f.done.countP ForwardEvent.isCompleted = 0
  closed : f.pc = .rests → f.done = [] ∨
    f.done.head? = some (.completed f.ticket) ∧ f.done.countP ForwardEvent.isCompleted = 1

variable {l : Link} {f : Forward} {rs : CallReply}

theorem Orderly.cons {done : List ForwardEvent} {e : ForwardEvent} (orderly : Orderly done)
    (once : e.isPrepared = true → done.countP ForwardEvent.isPrepared = 0)
    (after : e = .sent .execute → ∃ flags, .prepared flags ∈ done) : Orderly (e :: done) where
  once := by
    rw [countP_cons]
    cases kind : e.isPrepared with
    | false => exact orderly.once
    | true =>
      rw [once kind]
      decide
  precedes post pre same := by
    cases post with
    | nil =>
      cases same
      exact after rfl
    | cons first rest =>
      cases same
      exact orderly.precedes rest pre rfl

theorem begin_records (datalen epoch ns nr : Nat) (args : List Nat) :
    (Forward.begin datalen epoch ns nr args).Records where
  orderly := ⟨Nat.zero_le _, fun post pre same => by cases post <;> cases same⟩
  prepared := rfl
  sends rq at_ execute := by
    cases at_
    cases execute
  open_ _ := rfl
  closed at_ := nomatch at_

theorem Forward.Records.send {rq : CallRequest} (records : f.Records) (at_ : f.pc = .sends rq) :
    Forward.Records { f with pc := .waits, done := .sent rq.op :: f.done } where
  orderly := by
    refine records.orderly.cons nofun fun execute => ?_
    have op : rq.op = .execute := by injection execute
    have prepared := records.prepared
    rw [if_pos (records.sends rq at_ op)] at prepared
    exact prepared
  prepared := by
    have prepared := records.prepared
    split at prepared
    case isTrue flag =>
      rw [if_pos flag]
      exact prepared.imp fun _ => mem_cons_of_mem _
    case isFalse flag =>
      rw [if_neg flag, countP_cons]
      exact prepared
  sends rq' here := nomatch here
  open_ _ := by
    rw [countP_cons]
    exact records.open_ (by rw [at_]; exact nofun)
  closed here := nomatch here

theorem Forward.Records.noted (rs : CallReply) (records : f.Records) (waits : f.pc = .waits) :
    (f.noted rs).Records ∧ (f.noted rs).pc = .waits ∧ (f.noted rs).ticket = rs.ticket := by
  have moved : Forward.Records { f with ticket := rs.ticket } :=
    { records with closed := fun here => nomatch waits.symm.trans here }
  simp only [Forward.noted, Forward.published]
  split
  · exact ⟨{ moved with }, waits, rfl⟩
  · exact ⟨moved, waits, rfl⟩

theorem Forward.Records.prepares (rs : CallReply) (records : f.Records) (waits : f.pc = .waits) :
    (f.prepares rs).Records ∧ (f.prepares rs).prepared = true ∧ (f.prepares rs).pc = .waits := by
  rw [Forward.prepares]
  split
  case isTrue flag => exact ⟨records, flag, waits⟩
  case isFalse flag =>
    have none := records.prepared
    rw [if_neg flag] at none
    refine ⟨{ records with
      orderly := records.orderly.cons (fun _ => none) (by simp)
      prepared := ⟨rs.prepareFlags, mem_cons_self⟩
      sends := by simp [waits]
      open_ := fun here => ?_
      closed := by simp [waits] }, rfl, waits⟩
    rw [countP_cons]
    exact records.open_ here

theorem Forward.Records.asks {op : CallOp} (records : f.Records) (waits : f.pc = .waits)
    (after : op = .execute → f.prepared = true) : (f.asks op).Records :=
  { records with
    sends := fun rq here execute => by
      cases here
      exact after execute
    open_ := fun _ => records.open_ (by rw [waits]; exact nofun)
    closed := nofun }

theorem Forward.Records.receive {c : Conn} (records : f.Records) (waits : f.pc = .waits)
    (incoming : Incoming f c rs) (steady : Steady c) : (f.receive rs).Records := by
  obtain ⟨noted, pc, ticket⟩ := records.noted rs waits
  rw [incoming.receives steady]
  split
  case isTrue complete =>
    refine ⟨noted.orderly.cons nofun nofun, ?_,
      nofun, fun here => absurd rfl here, fun _ => .inr ⟨?_, ?_⟩⟩
    · have prepared := noted.prepared
      split at prepared
      case isTrue flag =>
        simp only [flag]
        exact prepared.imp fun _ => mem_cons_of_mem _
      case isFalse flag =>
        simp only [flag]
        exact prepared
    · simp only [List.head?_cons, ticket]
    · have open_ := noted.open_ (by rw [pc]; exact nofun)
      simp only [countP_cons, open_]
      rfl
  case isFalse =>
    split
    case isTrue =>
      obtain ⟨prepares, flag, here⟩ := noted.prepares rs pc
      exact prepares.asks here fun _ => flag
    case isFalse => exact noted.asks pc nofun

theorem receive_done {c : Conn} {t : Nat} (incoming : Incoming f c rs) (steady : Steady c)
    (ended : .completed t ∈ (f.receive rs).done) :
    t = rs.ticket ∧ rs.state = .complete ∨ .completed t ∈ f.done := by
  have noted : (f.noted rs).done = f.done := by
    simp only [Forward.noted, Forward.published]
    split <;> rfl
  rw [incoming.receives steady] at ended
  split at ended
  case isTrue complete =>
    obtain same | old := mem_cons.mp ended
    · cases same
      exact .inl ⟨rfl, complete⟩
    · exact .inr (noted ▸ old)
  case isFalse =>
    refine .inr ?_
    split at ended
    case isTrue =>
      simp only [Forward.asks, Forward.prepares] at ended
      split at ended
      · exact noted ▸ ended
      · exact noted ▸ (mem_cons.mp ended).resolve_left (by simp)
    case isFalse => exact noted ▸ ended

structure Link.Sane (l : Link) : Prop where
  good : l.Good
  records : l.fwd.Records
  told : ∀ t, .completed t ∈ l.fwd.done → ∃ reply gate, .replied reply gate ∈ l.conn.log ∧
    reply.ticket = t ∧ reply.state = .complete

theorem link_log {l' : Link} {a : LinkAct} (good : l.Good) (sound : LinkAct.Sound l a)
    (step : l.next a = some l') {e : Event} (old : e ∈ l.conn.log) : e ∈ l'.conn.log := by
  cases a with
  | begin | send | receive =>
    simp only [Link.next] at step
    split at step <;> cases step
    exact old
  | deliver credit setcpu =>
    obtain ⟨rfl, rfl⟩ := sound
    simp only [Link.next] at step
    split at step
    case h_2 => cases step
    case h_1 rq sent =>
      obtain ⟨c, moved, rfl⟩ := Option.map_eq_some_iff.mp step
      obtain ⟨-, -, -, request⟩ := good.phase.request sent
      cases Conn.next_moves moved with
      | surrounds outside => cases outside
      | requested =>
        obtain opening | continuing := request
        · rw [opening.accepted]
          simp only [mem_cons, old, or_true]
        · rw [continuing.accepted good.conn]
          exact mem_cons_of_mem _ old
  | conn a =>
    obtain ⟨answers, c, moved, rfl⟩ := link_conn step
    have move := Conn.next_moves moved
    cases own : a.own with
    | true => exact (connMove_turns good.conn good.steady own sound move).log e old
    | false => exact (connMove_drives own answers move).log e old

theorem link_sane {l' : Link} {a : LinkAct} (sane : l.Sane)
    (allowed : LinkAct.Sound l a ∧ LinkAct.Prompt l a) (step : l.next a = some l') : l'.Sane := by
  have log {e : Event} (old : e ∈ l.conn.log) := link_log sane.good allowed.1 step old
  have told (t : Nat) (ended : .completed t ∈ l.fwd.done) : ∃ reply gate,
      .replied reply gate ∈ l'.conn.log ∧ reply.ticket = t ∧ reply.state = .complete := by
    obtain ⟨reply, gate, sent, said⟩ := sane.told t ended
    exact ⟨reply, gate, log sent, said⟩
  have keeps := link_keeps sane.good allowed step
  have records := sane.records
  cases a with
  | begin =>
    simp only [Link.next] at step
    split at step <;> cases step
    exact ⟨keeps, begin_records _ _ _ _ _, fun t ended => absurd ended not_mem_nil⟩
  | send =>
    simp only [Link.next] at step
    split at step
    case h_1 rq at_ =>
      cases step
      refine ⟨keeps, records.send at_, fun t ended => told t ?_⟩
      exact (mem_cons.mp ended).resolve_left (by simp)
    case h_2 => cases step
  | deliver credit setcpu =>
    simp only [Link.next] at step
    split at step
    case h_1 =>
      obtain ⟨c, -, rfl⟩ := Option.map_eq_some_iff.mp step
      exact ⟨keeps, records, told⟩
    case h_2 => cases step
  | conn a =>
    obtain ⟨-, c, -, rfl⟩ := link_conn step
    exact ⟨keeps, records, told⟩
  | receive =>
    simp only [Link.next] at step
    split at step
    case h_2 => cases step
    case h_1 rs here =>
      cases step
      obtain ⟨waits, -, -, incoming⟩ := sane.good.phase.reply here
      refine ⟨keeps, records.receive waits incoming sane.good.steady, fun t ended => ?_⟩
      obtain ⟨rfl, state⟩ | old := receive_done incoming sane.good.steady ended
      · obtain ⟨gate, sent⟩ := incoming.sent
        exact ⟨rs, gate, sent, rfl, state⟩
      · exact told t old

theorem link_new_sane : Link.new.Sane where
  good := {
    conn := conn_new_good
    steady := {
      alive := ⟨rfl, rfl, nofun⟩
      ticket := .inl rfl
      begun := fun real => absurd rfl real
      unreleased := nofun
      released := nofun
      waits := nofun
      argument := by decide
      real := nofun
      fixed := fun valid => absurd valid (by decide)
      child := fun child => absurd rfl child
      clone := fun child => absurd rfl child
      place := trivial }
    draft := trivial
    phase := ⟨rfl, rfl, rfl, rfl⟩ }
  records := {
    orderly := ⟨Nat.zero_le _, fun post pre same => by cases post <;> cases same⟩
    prepared := rfl
    sends := nofun
    open_ := fun here => absurd rfl here
    closed := fun _ => .inl rfl }
  told := nofun

theorem promptReached_sane (run : PromptReached l) : l.Sane :=
  run.invariant (fun _ _ _ sane step => link_sane sane step.1 step.2) link_new_sane

/-! ## Some end can take a step -/

/-- The steps of the two ends; the others are the task's, other controls' and a new call's. -/
def LinkAct.protocol : LinkAct → Bool
  | .conn a => a.native.isNone
  | .begin _ _ _ _ _ => false
  | .send | .deliver _ _ | .receive => true

theorem advance_some {c : Context} {pc : CtlPc} {rq : GateRequest} (held : c.ctl = some pc)
    (request : pc.request = some rq) : ∃ out, c.advance false = some out := by
  simp only [Context.advance, held]
  cases pc with
  | other => cases request
  | loaded rq s =>
    simp only
    split
    · exact ⟨_, rfl⟩
    · split <;> exact ⟨_, rfl⟩
  | answering rq | settling rq r | childing rq r =>
    simp only
    split <;> exact ⟨_, rfl⟩
  | copying rq r => exact ⟨_, rfl⟩

theorem conn_steps {c : Conn} (good : c.Good) (steady : Steady c) (busy : c.pc.idles = false) :
    ∃ a, (LinkAct.conn a).protocol = true ∧ (∀ rq credit setcpu, a ≠ .request rq credit setcpu) ∧
      a.Sound c ∧ (c.next a).isSome = true := by
  have locked := good.native.locked
  have place := steady.place
  cases at_ : c.pc with
  | idle =>
    rw [at_] at busy
    cases busy
  | failed | closed =>
    rw [at_] at place
    exact place.elim
  | first | commit =>
    refine ⟨.enter true, rfl, by simp, rfl, ?_⟩
    simp only [Conn.next, Conn.enter, at_, Option.isSome_some]
  | inFirst | inCommit =>
    rw [at_] at locked
    obtain ⟨pc, held, request⟩ := locked
    obtain ⟨out, moved⟩ := advance_some held request
    refine ⟨.advance false, rfl, by simp, rfl, ?_⟩
    simp only [Conn.next, Conn.advance, moved, at_, Option.isSome_some]
  | gotFirst op reply answer =>
    by_cases set_ : c.call.target.valid = true
    · refine ⟨.took (.ok c.call.target), rfl, by simp, ⟨_, rfl, fun _ => rfl⟩, ?_⟩
      simp only [Conn.next, Conn.own, at_, Conn.snapshotValid, set_, if_true, Option.isSome_some]
    · have sound : ConnAct.Sound c (.took (.ok home)) :=
        ⟨home, rfl, fun valid => absurd valid set_⟩
      refine ⟨.took (.ok home), rfl, by simp, sound, ?_⟩
      have valid : Conn.snapshotValid (.ok home) = true := by decide
      simp only [Conn.next, Conn.own, at_, valid, if_true, Option.isSome_some]
  | gotCommit =>
    refine ⟨.tookCommit, rfl, by simp, trivial, ?_⟩
    simp only [Conn.next, Conn.own, at_, Option.isSome_some]
  | birth =>
    have sound : ConnAct.Sound c (.birth .ended) := by
      intro errno
      constructor
      · intro same
        cases same
      · intro source binding same
        cases same
    refine ⟨.birth .ended, rfl, by simp, sound, ?_⟩
    simp only [Conn.next, Conn.own, at_, Option.isSome_some]
  | state =>
    refine ⟨.state none, rfl, by simp, rfl, ?_⟩
    simp only [Conn.next, Conn.own, at_, Option.isSome_some]
  | complete =>
    refine ⟨.completion none, rfl, by simp, rfl, ?_⟩
    simp only [Conn.next, Conn.own, at_, Option.isSome_some]
  | sending =>
    refine ⟨.send true, rfl, by simp, rfl, ?_⟩
    simp only [Conn.next, Conn.own, at_, if_true, Option.isSome_some]

theorem link_steps (good : l.Good) (busy : l.fwd.pc ≠ .rests) :
    ∃ a, a.protocol = true ∧ LinkAct.Sound l a ∧ (l.next a).isSome = true := by
  have phase := good.phase
  unfold Phase at phase
  split at phase
  case h_1 rests => exact absurd rests busy
  case h_2 rq at_ =>
    refine ⟨.send, rfl, trivial, ?_⟩
    simp only [Link.next, at_, Option.isSome_some]
  case h_3 =>
    obtain ⟨rq, sent, -, idle, -⟩ | ⟨-, -, serving, -⟩ | ⟨rs, -, told, -⟩ := phase
    · refine ⟨.deliver none none, rfl, ⟨rfl, rfl⟩, ?_⟩
      simp only [Link.next, sent, Conn.next, idle_of_idles idle, Option.isSome_map,
        Option.isSome_some]
    · obtain ⟨a, protocol, answers, sound, moves⟩ := conn_steps good.conn good.steady serving
      refine ⟨.conn a, protocol, sound, ?_⟩
      simp only [Link.next, Option.isSome_map, moves]
    · refine ⟨.receive, rfl, trivial, ?_⟩
      simp only [Link.next, told, Option.isSome_some]
  case h_4 => exact phase.elim

end Vmctx.Gate
