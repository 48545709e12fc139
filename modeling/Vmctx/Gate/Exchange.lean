import Vmctx.Gate.Turns
/-!
# Both ends of a call

Each end waits for the other, so at any time the call is with one of them or in one message between
them. What the executor remembers of a call agrees with what the source does, and every reply is one
that `forward` goes on with.
-/

namespace Vmctx.Gate

/-! ## What holds between the ends -/

structure Kept (f : Forward) (c : Conn) : Prop where
  ticket : f.ticket = 0 ∨ f.ticket = c.call.next
  prepared : c.call.prepared = true → f.prepared = true
  fixed : f.prepared = true → c.call.target.valid = true ∧
    f.lease = (isCloneNr c.call.admitted.1 && !f.childSeen)
  seen : f.childSeen = true → f.prepared = true ∧ ¬Unborn c.call.next c.log
  serves : c.pc.serves = some .execute → f.prepared = true

structure Opening (f : Forward) (c : Conn) (rq : CallRequest) : Prop where
  request : rq.op = .prepare ∧ rq.ticket = 0 ∧ rq.decodes = true
  free : c.call.active = false
  room : c.call.next < ticketMax
  fresh : f.ticket = 0 ∧ f.prepared = false ∧ f.childSeen = false

structure Continuing (f : Forward) (c : Conn) (rq : CallRequest) : Prop where
  request : ∃ op, op ≠ .prepare ∧ rq = .follow op c.call.next
  active : c.call.active = true
  kept : Kept f c
  /-- An `EXECUTE` follows the preparation, for a call that was seen `ADMITTED`. -/
  asked : rq.op = .execute → f.prepared = true ∧ Asked c.call .execute

def Request (f : Forward) (c : Conn) (rq : CallRequest) : Prop :=
  Opening f c rq ∨ Continuing f c rq

structure Incoming (f : Forward) (c : Conn) (rs : CallReply) : Prop where
  kept : Kept f c
  ticket : rs.ticket = c.call.next ∧ c.call.next ≠ 0
  sent : ∃ gate, .replied rs gate ∈ c.log
  told : Told c.call rs
  last : rs.state = .complete ↔ c.call.active = false
  first : rs.child = true → f.childSeen = false

def Phase (l : Link) : Prop :=
  match l.fwd.pc with
  | .rests =>
    l.toSource = none ∧ l.toExecutor = none ∧ l.conn.pc.idles = true ∧ l.conn.call.active = false
  | .sends rq =>
    l.toSource = none ∧ l.toExecutor = none ∧ l.conn.pc.idles = true ∧ Request l.fwd l.conn rq
  | .waits =>
    (∃ rq, l.toSource = some rq ∧ l.toExecutor = none ∧ l.conn.pc.idles = true ∧
      Request l.fwd l.conn rq) ∨
    (l.toSource = none ∧ l.toExecutor = none ∧ l.conn.pc.idles = false ∧ Kept l.fwd l.conn) ∨
    ∃ rs, l.toSource = none ∧ l.toExecutor = some rs ∧ l.conn.pc.idles = true ∧
      Incoming l.fwd l.conn rs
  | .broken _ => False

structure Link.Good (l : Link) : Prop where
  conn : l.conn.Good
  steady : Steady l.conn
  draft : Draft l.conn.call l.conn.pc
  phase : Phase l

variable {l : Link} {f : Forward} {c : Conn} {rq : CallRequest} {rs : CallReply}

theorem Phase.request (phase : Phase l) (sent : l.toSource = some rq) :
    l.fwd.pc = .waits ∧ l.toExecutor = none ∧ l.conn.pc.idles = true ∧
      Request l.fwd l.conn rq := by
  unfold Phase at phase
  split at phase
  case h_1 => cases sent.symm.trans phase.1
  case h_2 => cases sent.symm.trans phase.1
  case h_3 waits =>
    obtain ⟨asked, here, silent, idle, request⟩ | ⟨none, -⟩ | ⟨-, none, -⟩ := phase
    · cases here.symm.trans sent
      exact ⟨waits, silent, idle, request⟩
    · cases sent.symm.trans none
    · cases sent.symm.trans none
  case h_4 => exact phase.elim

theorem Phase.reply (phase : Phase l) (told : l.toExecutor = some rs) :
    l.fwd.pc = .waits ∧ l.toSource = none ∧ l.conn.pc.idles = true ∧
      Incoming l.fwd l.conn rs := by
  unfold Phase at phase
  split at phase
  case h_1 => cases told.symm.trans phase.2.1
  case h_2 => cases told.symm.trans phase.2.1
  case h_3 waits =>
    obtain ⟨-, -, none, -⟩ | ⟨-, none, -⟩ | ⟨here, sent, same, idle, incoming⟩ := phase
    · cases told.symm.trans none
    · cases told.symm.trans none
    · cases same.symm.trans told
      exact ⟨waits, sent, idle, incoming⟩
  case h_4 => exact phase.elim

theorem Phase.served (phase : Phase l) (busy : l.conn.pc.idles = false) :
    l.fwd.pc = .waits ∧ l.toSource = none ∧ l.toExecutor = none ∧ Kept l.fwd l.conn := by
  have idle {p : Prop} (idles : l.conn.pc.idles = true) : p :=
    absurd (busy.symm.trans idles) (by decide)
  unfold Phase at phase
  split at phase
  case h_1 => exact idle phase.2.2.1
  case h_2 => exact idle phase.2.2.1
  case h_3 waits =>
    obtain ⟨-, -, -, idles, -⟩ | ⟨sent, silent, -, kept⟩ | ⟨-, -, -, idles, -⟩ := phase
    · exact idle idles
    · exact ⟨waits, sent, silent, kept⟩
    · exact idle idles
  case h_4 => exact phase.elim

/-! ## Requests -/

variable {pc : ConnPc} {c' : Conn} {a : ConnAct} {l' : Link}

theorem idle_of_idles (idle : pc.idles = true) : pc = .idle := by
  cases pc with
  | idle => rfl
  | _ => cases idle

theorem Opening.accepted (opening : Opening f c rq) :
    c.request rq none none = { c with
      call := .fresh (c.call.next + 1)
      pc := .first .prepare { CallReply.zero with ticket := c.call.next + 1 }
      log := .accepted (c.call.next + 1) :: .setcpu :: .credit :: .request .prepare :: c.log } := by
  obtain ⟨op, ticket, decodes⟩ := opening.request
  have room : c.call.next ≠ ticketMax := Nat.ne_of_lt opening.room
  have accepts : c.call.accepts rq = .ok () := by
    simp [Admission.accepts, opening.free, ticket, decodes, room]
  simp only [Conn.request, Conn.note, op, accepts]
  rfl

theorem Opening.steady (opening : Opening f c rq) (good : c.Good) (steady : Steady c) :
    Steady (c.request rq none none) := by
  rw [opening.accepted]
  have inactive {p : Prop} (active : c.call.active = true) : p :=
    absurd (opening.free.symm.trans active) (by decide)
  have current : c.world.ctx.gate.ticket = c.call.next :=
    steady.ticket.resolve_right fun next => inactive next.1
  exact { steady with
    ticket := .inr ⟨rfl, rfl, congrArg (· + 1) current, opening.room⟩
    unreleased := fun _ _ committed => by
      have old := good.native.good.committed_le committed
      rw [current] at old
      exact absurd old (Nat.not_succ_le_self _)
    released := nofun
    waits := fun _ _ seen => seen.elim nofun nofun
    argument := ⟨nofun,
      fun late => absurd late (by decide : ¬GateState.running.rank ≤ GateState.entering.rank)⟩
    real := fun _ => nofun
    fixed := fun valid => absurd valid (by decide : ¬MmBinding.zero.valid = true)
    child := fun child => absurd rfl child
    place := nofun }

theorem Continuing.accepted (continuing : Continuing f c rq) (good : c.Good) :
    c.request rq none none = { c with
      pc := .first rq.op { CallReply.zero with ticket := c.call.gate.ticket }
      log := .request rq.op :: c.log } := by
  obtain ⟨op, other, rfl⟩ := continuing.request
  have continues : c.call.continues (.follow op c.call.next) = .ok () := by
    simp [Admission.continues, CallRequest.follow, continuing.active, good.ledger.books.ticket]
  cases op with
  | prepare => exact absurd rfl other
  | execute | poll =>
    simp only [Conn.request, Conn.note, CallRequest.follow] at continues ⊢
    simp only [continues]
    rfl

theorem Continuing.steady (continuing : Continuing f c rq) (good : c.Good) (steady : Steady c)
    (idle : c.pc.idles = true) : Steady (c.request rq none none) := by
  rw [continuing.accepted good]
  have calm : ¬Releasing c.world c.pc := by
    rw [idle_of_idles idle]
    exact id
  refine steady.goes calm fun execute => ?_
  exact (continuing.asked execute).2 rfl

theorem Kept.grows (kept : Kept f c) (call : c'.call = c.call) (log : ∀ e ∈ c.log, e ∈ c'.log)
    (serves : c'.pc.serves = some .execute → f.prepared = true) : Kept f c' where
  ticket := by rw [call]; exact kept.ticket
  prepared := by rw [call]; exact kept.prepared
  fixed := by rw [call]; exact kept.fixed
  seen flag := by
    rw [call]
    have old := kept.seen flag
    exact ⟨old.1, fun unborn => old.2 fun r g told => unborn r g (log _ told)⟩
  serves := serves

theorem Request.delivered (request : Request f c rq) (good : c.Good) (steady : Steady c)
    (idle : c.pc.idles = true) :
    Steady (c.request rq none none) ∧
      Draft (c.request rq none none).call (c.request rq none none).pc ∧
      (c.request rq none none).pc.idles = false ∧ Kept f (c.request rq none none) := by
  obtain opening | continuing := request
  · refine ⟨opening.steady good steady, ?_⟩
    rw [opening.accepted]
    obtain ⟨ticket, prepared, childSeen⟩ := opening.fresh
    refine ⟨⟨rfl, rfl⟩, rfl, .inl ticket, nofun, fun flag => ?_,
      fun flag => ?_, nofun⟩
    · exact absurd (prepared.symm.trans flag) (by decide)
    · exact absurd (childSeen.symm.trans flag) (by decide)
  · refine ⟨continuing.steady good steady idle, ?_⟩
    rw [continuing.accepted good]
    refine ⟨⟨rfl, rfl⟩, rfl, continuing.kept.grows rfl (fun _ => List.mem_cons_of_mem _) ?_⟩
    intro serves
    exact (continuing.asked (Option.some.inj serves)).1

/-! ## Steps of the source -/

theorem Kept.follows {call : Admission} {log : List Event} (kept : Kept f c)
    (follows : Follows c call pc) (grows : ∀ e ∈ c.log, e ∈ log) :
    Kept f ⟨c.world, call, pc, log⟩ where
  ticket := by
    simp only [follows.next]
    exact kept.ticket
  prepared flag := (follows.prepared flag).elim kept.prepared kept.serves
  fixed flag := by
    obtain ⟨valid, lease⟩ := kept.fixed flag
    obtain ⟨held, same⟩ := follows.fixed valid
    simp only [same]
    exact ⟨held, lease⟩
  seen flag := by
    have old := kept.seen flag
    simp only [follows.next]
    exact ⟨old.1, fun unborn => old.2 fun r g told => unborn r g (grows _ told)⟩
  serves some := by
    rw [show pc.serves = none from follows.serves] at some
    cases some

theorem Kept.moves (kept : Kept f c) (good : c.Good) (steady : Steady c)
    (answers : ∀ rq credit setcpu, a ≠ .request rq credit setcpu) (sound : a.Sound c)
    (move : ConnMove c a c') : Kept f c' := by
  by_cases own : a.own = true
  · obtain ⟨world, call, pc, log⟩ := c'
    obtain ⟨rfl, turn, grows⟩ := connMove_turns good steady own sound move
    exact kept.follows (turn_follows turn) grows
  · have drives := connMove_drives (by simpa using own) answers move
    exact kept.grows drives.call drives.log (by rw [drives.serves]; exact kept.serves)

theorem sends_incoming {reply : CallReply} (good : c.Good) (kept : Kept f c)
    (at_ : c.pc = .sending reply) (told : Told c.call reply) :
    Incoming f { c with pc := .idle, log := .replied reply c.call.gate :: c.log } reply := by
  have standing := good.ledger.at_ at_
  obtain ⟨publishes, -, last, working⟩ := standing.2 told.live
  constructor
  case kept =>
    exact kept.grows rfl (fun _ => List.mem_cons_of_mem _) nofun
  case ticket => exact ⟨publishes.ticket, publishes.unfinished.1⟩
  case sent => exact ⟨_, List.mem_cons_self⟩
  case told => exact told
  case last =>
    refine ⟨fun complete => (last complete).1, fun inactive => ?_⟩
    by_contra going
    exact absurd (inactive.symm.trans (working going).active) (by decide)
  case first =>
    intro child
    cases seen : f.childSeen with
    | false => rfl
    | true => exact absurd (publishes.first child) (kept.seen seen).2

theorem link_conn (step : l.next (.conn a) = some l') :
    (∀ rq credit setcpu, a ≠ .request rq credit setcpu) ∧
      ∃ c, l.conn.next a = some c ∧
        l' = { l with conn := c, toExecutor := (l.outgoing a).or l.toExecutor } := by
  simp only [Link.next] at step
  split at step
  case h_1 => cases step
  case h_2 other =>
    obtain ⟨c, moved, rfl⟩ := Option.map_eq_some_iff.mp step
    exact ⟨fun rq credit setcpu same => other rq credit setcpu same, c, moved, rfl⟩

theorem outgoing_none (silent : a ≠ .send true ∨ l.conn.pc.idles = true) : l.outgoing a = none := by
  unfold Link.outgoing
  split
  case h_1 =>
    obtain other | idle := silent
    · exact absurd rfl other
    · rw [idle_of_idles idle]
  case h_2 => rfl

theorem idle_drives (good : c.Good) (steady : Steady c)
    (answers : ∀ rq credit setcpu, a ≠ .request rq credit setcpu) (sound : a.Sound c)
    (idle : c.pc.idles = true) (move : ConnMove c a c') : Drives c c' := by
  cases own : a.own with
  | false => exact connMove_drives own answers move
  | true =>
    have busy := (turn_busy (connMove_turns good steady own sound move).turn).1
    exact absurd (busy.symm.trans idle) (by decide)

theorem Request.drives (request : Request f c rq) (drives : Drives c c') : Request f c' rq := by
  obtain opening | continuing := request
  · refine .inl ⟨opening.request, ?_, ?_, opening.fresh⟩
    · rw [drives.call]
      exact opening.free
    · rw [drives.call]
      exact opening.room
  · refine .inr ⟨?_, ?_, ?_, ?_⟩
    · rw [drives.call]
      exact continuing.request
    · rw [drives.call]
      exact continuing.active
    · exact continuing.kept.grows drives.call drives.log
        (by rw [drives.serves]; exact continuing.kept.serves)
    · rw [drives.call]
      exact continuing.asked

theorem Incoming.drives (incoming : Incoming f c rs) (drives : Drives c c') : Incoming f c' rs where
  kept := incoming.kept.grows drives.call drives.log
    (by rw [drives.serves]; exact incoming.kept.serves)
  ticket := by rw [drives.call]; exact incoming.ticket
  sent := incoming.sent.imp fun _ => drives.log _
  told := by rw [drives.call]; exact incoming.told
  last := by rw [drives.call]; exact incoming.last
  first := incoming.first

theorem conn_phase (good : l.Good) (answers : ∀ rq credit setcpu, a ≠ .request rq credit setcpu)
    (sound : a.Sound l.conn) (move : ConnMove l.conn a c') :
    Phase { l with conn := c', toExecutor := (l.outgoing a).or l.toExecutor } := by
  have phase := good.phase
  have waits (idle : l.conn.pc.idles = true) :
      Drives l.conn c' ∧ c'.pc.idles = true ∧ l.outgoing a = none := by
    have drives := idle_drives good.conn good.steady answers sound idle move
    exact ⟨drives, drives.idles.trans idle, outgoing_none (.inr idle)⟩
  unfold Phase at phase ⊢
  split at phase
  case h_1 at_ =>
    obtain ⟨sent, silent, idle, free⟩ := phase
    obtain ⟨drives, idles, none⟩ := waits idle
    simp only [at_, none, Option.none_or, drives.call]
    exact ⟨sent, silent, idles, free⟩
  case h_2 rq at_ =>
    obtain ⟨sent, silent, idle, request⟩ := phase
    obtain ⟨drives, idles, none⟩ := waits idle
    simp only [at_, none, Option.none_or]
    exact ⟨sent, silent, idles, request.drives drives⟩
  case h_3 at_ =>
    simp only [at_]
    obtain ⟨rq, sent, silent, idle, request⟩ | ⟨sent, silent, busy, kept⟩ |
      ⟨rs, sent, told, idle, incoming⟩ := phase
    · obtain ⟨drives, idles, none⟩ := waits idle
      rw [none, Option.none_or]
      exact .inl ⟨rq, sent, silent, idles, request.drives drives⟩
    · have moved := kept.moves good.conn good.steady answers sound move
      cases idles : c'.pc.idles with
      | false =>
        refine .inr (.inl ⟨sent, ?_, rfl, moved⟩)
        rw [silent, outgoing_none, Option.none_or]
        refine .inl ?_
        rintro rfl
        cases move with
        | surrounds outside => cases outside
        | sends => cases idles
      | true =>
        -- The step has sent the reply.
        cases own : a.own with
        | false =>
          have drives := connMove_drives own answers move
          exact absurd (busy.symm.trans (drives.idles.symm.trans idles)) (by decide)
        | true =>
          have turns := connMove_turns good.conn good.steady own sound move
          obtain ⟨rfl, -, reply, at_⟩ := (turn_busy turns.turn).2 idles
          have told := good.draft
          rw [at_] at told
          cases move with
          | surrounds outside => cases outside
          | sends here =>
            cases at_.symm.trans here
            refine .inr (.inr ⟨reply, sent, ?_, rfl, sends_incoming good.conn kept at_ told⟩)
            simp only [Link.outgoing, at_]
            rfl
    · obtain ⟨drives, idles, none⟩ := waits idle
      rw [none, Option.none_or]
      exact .inr (.inr ⟨rs, sent, told, idles, incoming.drives drives⟩)
  case h_4 => exact phase.elim

/-! ## Replies -/

theorem snapshot_flag (nr : Int) : (prepareFlagsOf nr &&& prepareSnapshot != 0) = isCloneNr nr := by
  rw [prepareFlagsOf]
  cases isCloneNr nr <;> decide

/-- What `forward` remembers of a reply, before it looks at the state. -/
def Forward.noted (f : Forward) (rs : CallReply) : Forward :=
  { f with ticket := rs.ticket }.published rs

theorem Incoming.publishes (incoming : Incoming f c rs) (steady : Steady c)
    (child : rs.child = true) : ¬{ f with ticket := rs.ticket }.birthRefused rs := by
  obtain ⟨named, clone, committed, state⟩ := incoming.told.child child
  have prepared := incoming.kept.prepared (steady.released committed).2
  have unseen := incoming.first child
  have lease : f.lease = true := by
    rw [(incoming.kept.fixed prepared).2, clone, unseen]
    rfl
  rintro (seen | unprepared | early | free | unnamed)
  · exact absurd (unseen.symm.trans seen) (by decide)
  · exact absurd (prepared.symm.trans unprepared) (by decide)
  · exact state.elim early.1 early.2
  · exact absurd (lease.symm.trans free) (by decide)
  · exact named unnamed

theorem Incoming.receives (incoming : Incoming f c rs) (steady : Steady c) :
    f.receive rs =
      if rs.state = .complete then
        { f.noted rs with pc := .rests, done := .completed rs.ticket :: (f.noted rs).done }
      else if rs.state = .admitted then ((f.noted rs).prepares rs).asks .execute
      else (f.noted rs).asks .poll := by
  have told := incoming.told
  obtain ⟨same, real⟩ := incoming.ticket
  have matches_ : ¬((rs.ticket = 0 ∧ rs.ended = false) ∨
      (f.ticket ≠ 0 ∧ f.ticket ≠ rs.ticket) ∨ rs.state = .none) := by
    rintro (⟨zero, -⟩ | ⟨known, other⟩ | none)
    · exact real (same.symm.trans zero)
    · exact other ((incoming.kept.ticket.resolve_left known).trans same.symm)
    · exact told.real none
  have births : ¬(rs.child = true ∧ { f with ticket := rs.ticket }.birthRefused rs) :=
    fun refused => incoming.publishes steady refused.1 refused.2
  rw [Forward.receive, if_neg matches_]
  simp only [if_neg births]
  by_cases complete : rs.state = .complete
  · simp only [if_pos complete]
    rfl
  simp only [if_neg complete]
  have plain : ¬(rs.data = true ∨ rs.ended = true) := by
    rintro (data | ended)
    · exact complete (told.data data)
    · exact absurd (told.live.symm.trans ended) (by decide)
  have follows : ¬(rs.state = .running ∧ (f.noted rs).prepared = false) := by
    rintro ⟨running, unprepared⟩
    have prepared := incoming.kept.prepared (steady.released (told.running running)).2
    have kept : (f.noted rs).prepared = f.prepared := by
      simp only [Forward.noted, Forward.published]
      split <;> rfl
    exact absurd (prepared.symm.trans (kept.symm.trans unprepared)) (by decide)
  have supported : ¬rs.prepareFlags ≥ 4 := Nat.not_le_of_lt told.flags
  change (f.noted rs).goesOn rs = _
  rw [Forward.goesOn, if_neg plain, if_neg supported, if_neg follows]

theorem Incoming.noted (incoming : Incoming f c rs) (steady : Steady c) :
    Kept (f.noted rs) c ∧ (f.noted rs).prepared = f.prepared := by
  have kept := incoming.kept
  have here : Kept { f with ticket := rs.ticket } c :=
    { kept with ticket := .inr incoming.ticket.1 }
  simp only [Forward.noted, Forward.published]
  split
  case isFalse => exact ⟨here, rfl⟩
  case isTrue child =>
    obtain ⟨-, -, committed, -⟩ := incoming.told.child child
    have prepared := kept.prepared (steady.released committed).2
    obtain ⟨gate, sent⟩ := incoming.sent
    refine ⟨{ here with fixed := fun flag => ?_, seen := fun _ => ⟨prepared, fun unborn => ?_⟩ },
      rfl⟩
    · refine ⟨(kept.fixed flag).1, ?_⟩
      simp
    · have absent := unborn rs gate sent incoming.ticket.1
      exact absurd (absent.symm.trans child) (by decide)

theorem Incoming.prepares (incoming : Incoming f c rs) (steady : Steady c)
    (admitted : rs.state = .admitted) :
    Kept ((f.noted rs).prepares rs) c ∧ ((f.noted rs).prepares rs).prepared = true := by
  obtain ⟨kept, same⟩ := incoming.noted steady
  rw [Forward.prepares]
  split
  case isTrue prepared => exact ⟨kept, prepared⟩
  case isFalse unprepared =>
    have source : c.call.prepared = false := by
      cases flag : c.call.prepared with
      | false => rfl
      | true => exact absurd (kept.prepared flag) unprepared
    have unseen : (f.noted rs).childSeen = false := by
      cases flag : (f.noted rs).childSeen with
      | false => rfl
      | true => exact absurd (kept.seen flag).1 unprepared
    obtain ⟨valid, flags⟩ := (incoming.told.admitted admitted).2.2 source
    refine ⟨{ kept with
      prepared := fun _ => rfl
      fixed := fun _ => ⟨valid, ?_⟩
      seen := fun flag => ⟨rfl, (kept.seen flag).2⟩
      serves := fun _ => rfl }, rfl⟩
    simp only [flags, snapshot_flag, unseen, Bool.not_false, Bool.and_true]

/-- What the executor remembers does not depend on where `forward` is. -/
theorem Kept.asks {pc : ForwardPc} (kept : Kept f c) : Kept { f with pc := pc } c :=
  { kept with }

theorem Incoming.received (incoming : Incoming l.fwd l.conn rs) (steady : Steady l.conn)
    (idle : l.conn.pc.idles = true) (sent : l.toSource = none) :
    Phase { l with fwd := l.fwd.receive rs, toExecutor := none } := by
  rw [incoming.receives steady]
  by_cases complete : rs.state = .complete
  · rw [if_pos complete]
    exact ⟨sent, rfl, idle, incoming.last.mp complete⟩
  have active : l.conn.call.active = true := by
    cases flag : l.conn.call.active with
    | true => rfl
    | false => exact absurd (incoming.last.mpr flag) complete
  rw [if_neg complete]
  have ticket : ∀ g : Forward, g.ticket = rs.ticket → g.ticket = l.conn.call.next :=
    fun g same => same.trans incoming.ticket.1
  have noted : (l.fwd.noted rs).ticket = rs.ticket := by
    simp only [Forward.noted, Forward.published]
    split <;> rfl
  by_cases admitted : rs.state = .admitted
  · rw [if_pos admitted]
    obtain ⟨kept, prepared⟩ := incoming.prepares steady admitted
    have same : ((l.fwd.noted rs).prepares rs).ticket = rs.ticket := by
      rw [Forward.prepares]
      split <;> exact noted
    refine ⟨sent, rfl, idle, .inr ⟨⟨.execute, nofun, ?_⟩, active, kept.asks, fun _ => ?_⟩⟩
    · rw [ticket _ same]
    · exact ⟨prepared, fun _ _ => (incoming.told.admitted admitted).2.1⟩
  · rw [if_neg admitted]
    have kept := (incoming.noted steady).1
    refine ⟨sent, rfl, idle, .inr ⟨⟨.poll, nofun, ?_⟩, active, kept.asks, fun execute => ?_⟩⟩
    · rw [ticket _ noted]
    · cases execute

/-! ## Every step -/

theorem link_keeps {a : LinkAct} (good : l.Good) (allowed : LinkAct.Sound l a ∧ LinkAct.Prompt l a)
    (step : l.next a = some l') : l'.Good := by
  obtain ⟨sound, prompt⟩ := allowed
  have phase := good.phase
  cases a with
  | begin datalen epoch ns nr args =>
    simp only [Link.next] at step
    split at step
    case h_2 => cases step
    case h_1 at_ =>
      cases step
      simp only [Phase, at_] at phase
      obtain ⟨sent, silent, idle, free⟩ := phase
      refine { good with phase := ⟨sent, silent, idle, .inl ?_⟩ }
      exact ⟨⟨rfl, rfl, rfl⟩, free, sound, rfl, rfl, rfl⟩
  | send =>
    simp only [Link.next] at step
    split at step
    case h_2 => cases step
    case h_1 rq at_ =>
      cases step
      simp only [Phase, at_] at phase
      obtain ⟨-, silent, idle, request⟩ := phase
      refine { good with phase := .inl ⟨rq, rfl, silent, idle, request.imp ?_ ?_⟩ }
      · exact fun opening => { opening with }
      · exact fun continuing => { continuing with kept := { continuing.kept with } }
  | deliver credit setcpu =>
    obtain ⟨rfl, rfl⟩ := sound
    simp only [Link.next] at step
    split at step
    case h_2 => cases step
    case h_1 rq sent =>
      obtain ⟨c, moved, rfl⟩ := Option.map_eq_some_iff.mp step
      have keeps := conn_keeps good.conn moved
      cases Conn.next_moves moved with
      | surrounds outside => cases outside
      | requested at_ =>
        obtain ⟨waits, silent, idle, request⟩ := phase.request sent
        obtain ⟨steady, draft, busy, kept⟩ := request.delivered good.conn good.steady idle
        refine ⟨keeps, steady, draft, ?_⟩
        simp only [Phase, waits]
        exact .inr (.inl ⟨trivial, silent, busy, kept⟩)
  | conn a =>
    obtain ⟨answers, c, moved, rfl⟩ := link_conn step
    have move := Conn.next_moves moved
    refine ⟨conn_keeps good.conn moved, ?_, ?_, conn_phase good answers sound move⟩
    · refine connMove_steady good.conn good.steady answers sound ?_ move
      rintro fault reply rq told rfl
      exact prompt reply rq told
    · cases own : a.own with
      | true =>
        have turns := connMove_turns good.conn good.steady own sound move
        exact turn_draft good.conn good.steady good.draft turns.turn
      | false =>
        have drives := connMove_drives own answers move
        simp only [drives.call]
        exact drives.draft good.draft
  | receive =>
    simp only [Link.next] at step
    split at step
    case h_2 => cases step
    case h_1 rs told =>
      cases step
      obtain ⟨-, sent, idle, incoming⟩ := phase.reply told
      exact { good with phase := incoming.received good.steady idle sent }

end Vmctx.Gate
