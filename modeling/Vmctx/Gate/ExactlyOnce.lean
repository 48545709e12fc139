import Vmctx.Gate.Native
/-!
# A call is admitted exactly once

Whatever the requests of a connection, the outcomes of its native operations and the steps of the
task between them, the log of the connection is justified: the frame is installed once per accepted
`PREPARE`, the memory is prepared once and before `COMMIT`, a birth is published once and after it,
and one `COMPLETE` closes the ticket.
-/

namespace Vmctx.Gate

open Vmctx.System

/-! ## Parts of a step -/

variable {c : Conn} {reply : CallReply} {op : CallOp} {answer : Answer}

variable {events : List Event} {errno : Errno} {a : ConnAct} {c' : Conn}

theorem note_silent (silent : ∀ e ∈ events, ∀ r g, e ≠ .replied r g) (r : CallReply) (g : GateReply)
    (told : .replied r g ∈ (c.note events).log) : .replied r g ∈ c.log := by
  obtain new | old := List.mem_append.mp told
  · exact absurd rfl (silent _ (List.mem_reverse.mp new) r g)
  · exact old

theorem effect_silent (t : Nat) (effects : List Effect) :
    ∀ e ∈ effects.map (Effect.event t), ∀ r g, e ≠ .replied r g := by
  intro e present r g
  obtain ⟨effect, -, rfl⟩ := List.mem_map.mp present
  cases effect <;> exact nofun

theorem fails_silent (r : CallReply) (g : GateReply)
    (told : .replied r g ∈ (c.fails errno reply).log) : .replied r g ∈ c.log := by
  obtain new | old := List.mem_cons.mp told
  · cases new
  · exact old

/-- A part of a step changes the admission and the place of `serve`, and publishes nothing. -/
theorem follow_facts (c : Conn) (part : Part) :
    (c.follow part).world = c.world ∧ (c.follow part).call = part.call ∧
      (c.follow part).pc.free = true ∧ (c.follow part).Telling (c.follow part).pc ∧
      ((∃ errno, part.next = .fail errno) → (c.follow part).Excused (c.follow part).pc) ∧
      ∀ r g, .replied r g ∈ (c.follow part).log → .replied r g ∈ c.log := by
  have silent := note_silent (c := { c with call := part.call })
    (effect_silent c.call.gate.ticket part.effects)
  simp only [Conn.follow]
  split
  case h_6 errno failing =>
    exact ⟨rfl, rfl, rfl, trivial, fun _ => trivial, fun r g told =>
      silent r g (fails_silent r g told)⟩
  all_goals
    exact ⟨rfl, rfl, rfl, trivial, fun fails => (by simp_all), silent⟩

structure Keeps (call call' : Admission) : Prop where
  next : call'.next = call.next
  active : call'.active = true → call.active = true
  committed : call'.committed = false → call.committed = false

theorem follow_threads {part : Part} (native : Native c) (free : c.pc.free = true)
    (keeps : Keeps c.call part.call)
    (excuses : part.call.committed = false → part.call.active = true → c.Excused c.pc →
      ∃ errno, part.next = .fail errno)
    (born : part.call.gate.childHostPid ≠ 0 → c.call.next ∈ c.world.committed)
    (seen : part.call.birthSeen = true → c.call.birthSeen = true ∨
      c.call.gate.childHostPid ≠ 0) : Native (c.follow part) := by
  obtain ⟨world, call, freed, telling, failing, silent⟩ := follow_facts c part
  refine threads_native native {
    world := world
    bound := Nat.le_of_eq (by rw [call, keeps.next])
    free := ⟨free, freed⟩
    telling := telling
    pending := ?_
    born := by rw [call, keeps.next]; exact born
    seen := ?_
    published := fun r g told => .inl (silent r g told) }
  · rw [call]
    intro active flag committed
    rw [keeps.next] at committed
    exact ⟨⟨keeps.active active, keeps.committed flag, committed⟩,
      fun excused => failing (excuses flag active excused)⟩
  · rw [call, keeps.next]
    intro flag
    obtain old | child := seen flag
    · exact native.seen old
    · exact native.born child

theorem afterFirst_keeps (call : Admission) (op : CallOp) (reply : CallReply) (answer : Answer)
    (snapshot : Except Errno MmBinding) :
    Keeps call (call.afterFirst op reply answer snapshot).call ∧
      (call.afterFirst op reply answer snapshot).call.birthSeen = call.birthSeen ∧
      ((call.afterFirst op reply answer snapshot).call.gate = call.gate ∨
        ∃ g, answer = .ok (some g) ∧
          (call.afterFirst op reply answer snapshot).call.gate = g) := by
  have same : Keeps call call := ⟨rfl, id, id⟩
  simp only [Admission.afterFirst]
  split
  case h_1 => split <;> exact ⟨same, rfl, .inl rfl⟩
  case h_2 gate =>
    have heard : Keeps call (call.heard gate) := ⟨rfl, id, id⟩
    have argument : (call.heard gate).gate = call.gate ∨
        ∃ g, (.ok gate : Answer) = .ok (some g) ∧ (call.heard gate).gate = g := by
      cases gate with
      | none => exact .inl rfl
      | some g => exact .inr ⟨g, rfl, rfl⟩
    split
    case isFalse => split <;> exact ⟨heard, rfl, argument⟩
    case isTrue =>
      cases snapshot with
      | error errno => exact ⟨heard, rfl, argument⟩
      | ok snapshot =>
        simp only [Admission.admittedPart]
        split
        case isTrue => exact ⟨heard, rfl, argument⟩
        case isFalse =>
          obtain ⟨next, held, active, -, committed, birthSeen⟩ :=
            @fix_same (call.heard gate) snapshot
          have fixed : Keeps call ((call.heard gate).fix snapshot) :=
            ⟨next, fun flag => active ▸ flag, fun flag => committed ▸ flag⟩
          split
          · exact ⟨⟨fixed.next, fixed.active, fixed.committed⟩, birthSeen, held ▸ argument⟩
          · exact ⟨fixed, birthSeen, held ▸ argument⟩

section

variable (native : Native c)
include native

theorem took_native {snapshot : Except Errno MmBinding} (at_ : c.pc = .gotFirst op reply answer) :
    Native (c.follow (c.call.afterFirst op reply answer snapshot)) := by
  obtain ⟨keeps, seen, argument⟩ := afterFirst_keeps c.call op reply answer snapshot
  have telling := native.telling
  rw [at_] at telling
  refine follow_threads native (by rw [at_]; rfl) keeps (fun _ _ excused => ?_) (fun child => ?_)
    (fun flag => .inl (seen ▸ flag))
  · rw [at_] at excused
    exact excused.elim
  · obtain same | ⟨g, told, same⟩ := argument
    · exact native.born (same ▸ child)
    · have truthful := (telling g told).1
      exact truthful.committed (truthful.child (same ▸ child))

theorem tookCommit_native (at_ : c.pc = .gotCommit reply answer) :
    Native ((c.note (Conn.returned c.call.gate.ticket answer)).follow
      (c.call.afterCommit reply answer)) := by
  have telling := native.telling
  rw [at_] at telling
  have noted : Native (c.note (Conn.returned c.call.gate.ticket answer)) := by
    have silent : ∀ e ∈ Conn.returned c.call.gate.ticket answer, ∀ r g, e ≠ .replied r g := by
      intro e present r g
      cases answer with
      | error => cases present
      | ok =>
        cases List.mem_singleton.mp present
        simp
    exact { native with
      published := fun r g told => native.published r g (note_silent silent r g told) }
  simp only [Admission.afterCommit]
  cases answer with
  | error errno =>
    simp only
    split
    case isTrue transient =>
      refine follow_threads noted (by rw [Conn.note, at_]; rfl) ⟨rfl, id, id⟩
        (fun _ _ excused => ?_) native.born .inl
      rw [Conn.note, at_] at excused
      exact absurd ((excused errno rfl).symm.trans transient) (by decide)
    case isFalse =>
      exact follow_threads noted (by rw [Conn.note, at_]; rfl) ⟨rfl, id, id⟩
        (fun _ _ _ => ⟨errno, rfl⟩) native.born .inl
  | ok gate =>
    refine follow_threads noted (by rw [Conn.note, at_]; rfl)
      ⟨rfl, id, fun flag => absurd flag.symm Bool.false_ne_true⟩
      (fun flag => absurd flag.symm Bool.false_ne_true) (fun child => ?_) .inl
    cases gate with
    | none => exact native.born child
    | some g =>
      have truthful := telling g rfl
      exact truthful.committed (truthful.child child)

theorem births_native {outcome : Admission.Birth} (at_ : c.pc = .birth reply) :
    Native (c.follow (c.call.birth reply outcome)) := by
  have threads (part : Part) (keeps : Keeps c.call part.call)
      (gate : part.call.gate = c.call.gate)
      (seen : part.call.birthSeen = true → c.call.birthSeen = true ∨
        c.call.gate.childHostPid ≠ 0) : Native (c.follow part) := by
    refine follow_threads native (by rw [at_]; rfl) keeps (fun _ _ excused => ?_)
      (fun child => native.born (gate ▸ child)) seen
    rw [at_] at excused
    exact excused.elim
  simp only [Admission.birth]
  split
  case isTrue => exact threads _ ⟨rfl, id, id⟩ rfl .inl
  case isFalse unaccounted =>
    have child : c.call.gate.childHostPid ≠ 0 := fun none => unaccounted (.inr none)
    cases outcome with
    | busy | failed => exact threads _ ⟨rfl, id, id⟩ rfl .inl
    | ended => exact threads _ ⟨rfl, id, id⟩ rfl (fun _ => .inr child)
    | born source binding =>
      simp only
      split
      case isTrue => exact threads _ ⟨rfl, id, id⟩ rfl .inl
      case isFalse =>
        split
        case isTrue => exact threads _ ⟨rfl, id, id⟩ rfl .inl
        case isFalse => exact threads _ ⟨rfl, id, id⟩ rfl (fun _ => .inr child)

theorem states_native {dead : Option Nat} (at_ : c.pc = .state reply) :
    Native (c.follow (c.call.finish reply dead)) := by
  have facts : Keeps c.call (c.call.finish reply dead).call ∧
      (c.call.finish reply dead).call.gate = c.call.gate ∧
      (c.call.finish reply dead).call.birthSeen = c.call.birthSeen := by
    cases dead with
    | some => exact ⟨⟨rfl, fun flag => absurd flag Bool.false_ne_true, id⟩, rfl, rfl⟩
    | none =>
      simp only [Admission.finish]
      split
      case h_4 =>
        split
        · exact ⟨⟨rfl, id, id⟩, rfl, rfl⟩
        · exact ⟨⟨rfl, fun flag => absurd flag Bool.false_ne_true, id⟩, rfl, rfl⟩
      all_goals exact ⟨⟨rfl, id, id⟩, rfl, rfl⟩
  refine follow_threads native (by rw [at_]; rfl) facts.1 (fun _ _ excused => ?_)
    (fun child => native.born (facts.2.1 ▸ child)) (fun flag => .inl (facts.2.2 ▸ flag))
  rw [at_] at excused
  exact excused.elim

/-! ## Requests and replies -/

theorem goes_native {pc : ConnPc} {log : List Event} (free : c.pc.free = true ∧ pc.free = true)
    (telling : Conn.Telling { c with pc := pc, log := log } pc)
    (excuses : c.Excused c.pc → Conn.Excused { c with pc := pc, log := log } pc)
    (published : ∀ r g, .replied r g ∈ log →
      .replied r g ∈ c.log ∨ (r.child = true → r.ticket ∈ c.world.committed)) :
    Native { c with pc := pc, log := log } :=
  threads_native native {
    world := rfl
    bound := Nat.le_refl _
    free := free
    telling := telling
    pending := fun active flag committed => ⟨⟨active, flag, committed⟩, excuses⟩
    born := native.born
    seen := native.seen
    published := published }

theorem fails_native (free : c.pc.free = true) : Native (c.fails errno reply) :=
  goes_native native ⟨free, rfl⟩ trivial (fun _ => trivial)
    (fun r g told => .inl (by simpa using told))

theorem note_native (silent : ∀ e ∈ events, ∀ r g, e ≠ .replied r g) : Native (c.note events) :=
  { native with published := fun r g told => native.published r g (note_silent silent r g told) }

theorem fresh_native {op : CallOp} (free : c.pc.free = true) :
    Native { c with call := .fresh (c.call.next + 1), pc := .first op reply } := by
  have ahead : c.call.next + 1 ∉ c.world.committed := by
    intro old
    have begun := native.good.committed_le old
    have bound := native.bound
    omega
  exact threads_native native {
    world := rfl
    bound := Nat.le_succ _
    free := ⟨free, rfl⟩
    telling := trivial
    pending := fun _ _ committed => absurd committed ahead
    born := fun child => absurd rfl child
    seen := nofun
    published := fun r g told => .inl told }

theorem requested_native {rq : CallRequest} {credit setcpu : Option Errno} (at_ : c.pc = .idle) :
    Native (c.request rq credit setcpu) := by
  have free : c.pc.free = true := by rw [at_]; rfl
  have idle (excused : c.Excused c.pc) : False := by
    rw [at_] at excused
    exact excused
  have asked : Native (c.note [.request rq.op]) :=
    note_native native (by simp)
  have credited : Native ((c.note [.request rq.op]).note [.credit]) :=
    note_native asked (by simp)
  have set_ : Native (((c.note [.request rq.op]).note [.credit]).note [.setcpu]) :=
    note_native credited (by simp)
  simp only [Conn.request]
  split
  case h_1 =>
    split
    case h_1 => exact fails_native asked free
    case h_2 =>
      cases credit with
      | some errno => exact fails_native credited free
      | none =>
        cases setcpu with
        | some errno => exact fails_native set_ free
        | none => exact fresh_native (note_native set_ (by simp)) free
  case h_2 =>
    split
    case h_1 => exact fails_native asked free
    case h_2 =>
      exact goes_native asked ⟨free, rfl⟩ trivial (fun excused => (idle excused).elim)
        (fun r g told => .inl told)

theorem failure_native {ended : Option Nat} (at_ : c.pc = .failed errno reply) :
    Native (c.failure errno reply ended) := by
  have free : c.pc.free = true := by rw [at_]; rfl
  have closes : Native { c with pc := .closed } :=
    goes_native native ⟨free, rfl⟩ trivial (fun _ => trivial) (fun r g told => .inl told)
  cases ended with
  | none => exact closes
  | some status =>
    simp only [Conn.failure]
    split
    case isFalse => exact closes
    case isTrue =>
      exact threads_native native {
        world := rfl
        bound := Nat.le_refl _
        free := ⟨free, rfl⟩
        telling := trivial
        pending := fun active => absurd active Bool.false_ne_true
        born := native.born
        seen := native.seen
        published := fun r g told => .inl told }

/-- A published birth was accounted for, so it came after the `COMMIT`. -/
theorem sends_native (ledger : Ledger c) (at_ : c.pc = .sending reply) :
    Native { c with pc := .idle, log := .replied reply c.call.gate :: c.log } := by
  have standing := ledger.at_ at_
  refine goes_native native ⟨by rw [at_]; rfl, rfl⟩ trivial (fun excused => ?_)
    (fun r g told => ?_)
  · rw [at_] at excused
    exact excused
  · obtain new | old := List.mem_cons.mp told
    · cases new
      refine .inr fun child => ?_
      have spoiled : Spoiled c.call reply c.log := by
        cases ended : reply.ended with
        | true => exact (standing.1 ended).2.2
        | false => exact .inr (standing.2 ended).1
      obtain ⟨-, none⟩ | publishes := spoiled
      · exact absurd (none.symm.trans child) (by decide)
      · rw [publishes.ticket]
        exact native.seen (publishes.flag child)
    · exact .inl old

theorem connMove_native (ledger : Ledger c) (move : ConnMove c a c') : Native c' := by
  cases move with
  | surrounds outside step => exact surrounds_native native outside step
  | requested at_ => exact requested_native native at_
  | firstTurned at_ =>
    refine goes_native native ⟨by rw [at_]; rfl, rfl⟩ nofun
      (fun excused => ?_) (fun r g told => .inl told)
    rw [at_] at excused
    exact excused.elim
  | firstEnters at_ free =>
    exact enters_native native (by rw [at_]; exact id) (fun _ _ => id) ⟨_, rfl, rfl⟩ rfl
  | commitTurned at_ =>
    refine goes_native native ⟨by rw [at_]; rfl, rfl⟩ nofun
      (fun excused => ?_) (fun r g told => .inl (by simpa using told))
    rw [at_] at excused
    exact excused.elim
  | commitEnters at_ free =>
    exact enters_native native (by rw [at_]; exact id) (fun r g told => by simpa using told)
      ⟨_, rfl, rfl⟩ rfl
  | advances step inside =>
    refine advances_native native ledger (advance_moves step) ?_
    obtain ⟨op, reply, at_⟩ | ⟨reply, at_⟩ := inside <;> rw [at_] <;> rfl
  | firstReturns at_ step => exact firstReturns_native native ledger at_ (advance_moves step)
  | commitReturns at_ step => exact commitReturns_native native ledger at_ (advance_moves step)
  | took at_ valid => exact took_native native at_
  | tookCommit at_ => exact tookCommit_native native at_
  | births at_ => exact births_native native at_
  | states at_ => exact states_native native at_
  | completes at_ =>
    refine goes_native native ⟨by rw [at_]; rfl, rfl⟩ trivial (fun excused => ?_)
      (fun r g told => .inl told)
    rw [at_] at excused
    exact excused.elim
  | spoils at_ => exact fails_native native (by rw [at_]; rfl)
  | failure at_ => exact failure_native native at_
  | sends at_ => exact sends_native native ledger at_
  | cut at_ =>
    exact goes_native native ⟨by rw [at_]; rfl, rfl⟩ trivial (fun _ => trivial)
      (fun r g told => .inl told)

end

/-! ## Whole runs -/

structure Conn.Good (c : Conn) : Prop where
  ledger : Ledger c
  native : Native c

theorem conn_keeps (good : c.Good) (step : c.next a = some c') : c'.Good := by
  have move := Conn.next_moves step
  have native := connMove_native good.native good.ledger move
  have telling := native.telling
  refine ⟨connMove_ledger good.ledger move (fun op reply answer at_ => ?_)
    (fun reply answer at_ => ?_), native⟩
  · rw [at_] at telling
    exact ⟨fun g told => ⟨(telling g told).1.ticket, (telling g told).1.child⟩,
      fun g told => (telling g told).2⟩
  · rw [at_] at telling
    exact fun g told => ⟨(telling g told).ticket, (telling g told).child⟩

theorem conn_new_good : Conn.new.Good where
  ledger := new_ledger
  native := {
    good := new_good true
    kids := ⟨fun child => absurd rfl child, trivial⟩
    locked := .inl rfl
    bound := Nat.le_refl _
    pending := nofun
    telling := trivial
    born := fun child => absurd rfl child
    seen := nofun
    published := nofun }

theorem connReached_good (run : ConnReached c) : c.Good :=
  run.invariant (fun _ _ _ good step => conn_keeps good step) conn_new_good

/-- What the source of a call has told the forwarder. -/
structure Conn.Contract (c : Conn) : Prop where
  /-- Every event is justified by the ones before it, and an observation that disagrees with an
  earlier one of its ticket is followed by the failure of the step. -/
  justified : ∀ post e pre, c.log = post ++ e :: pre →
    Justifies pre e ∧ (Disagrees pre → e = .failed .ESTALE)
  /-- No two of its observations of a ticket disagree. -/
  calm : ¬Disagrees c.log
  /-- A birth that was published came after a `COMMIT` of its ticket had released the call. -/
  released : ∀ r g, .replied r g ∈ c.log → r.child = true → r.ticket ∈ c.world.committed
  /-- A ticket whose end was told is closed: it is not the one in progress. -/
  closed : ∀ r g, .replied r g ∈ c.log → r.ticket ≠ 0 → r.state = .complete →
    c.call.active = false ∨ c.call.gate.ticket ≠ r.ticket

/-- For every sequence of requests and every native outcome, what a connection has done natively and
answered is justified, step by step. -/
theorem source_admission_contract (run : ConnReached c) : c.Contract where
  justified post e pre same := by
    have justified := (connReached_good run).ledger.books.justified
    rw [same] at justified
    exact justified.split
  calm := (connReached_good run).ledger.books.calm
  released := (connReached_good run).native.published
  closed r g told real late := by
    have books := (connReached_good run).ledger.books
    cases active : c.call.active with
    | false => exact .inl rfl
    | true =>
      refine .inr fun same => ?_
      have open_ := (books.account.unfinished active).2
      exact open_ r g told (same.symm.trans books.ticket) late

def home : MmBinding := ⟨5, 70, 0, 1⟩

/-- A request of a call, served to its reply; `inner` are the steps of its `COMMIT`. -/
def served (op : CallOp) (ticket steps : Nat) (inner : List ConnAct) (outcome : Admission.Birth)
    (last : List ConnAct) : List ConnAct :=
  [.request ⟨op, ticket, true, 0, 0, 0, 0, []⟩ none none, .enter true] ++
  List.replicate steps (.advance false) ++ [.took (.ok home)] ++ inner ++
  [.birth outcome, .state none] ++ last ++ [.send true]

/-- A call that makes a child, from `PREPARE` to the reply of its end. -/
def forked : List ConnAct :=
  [.task .ready] ++ served .prepare 0 4 [] .busy [] ++
  [.task (.start 56), .task (.admits 57 [7])] ++ served .poll 1 4 [] .busy [] ++
  served .execute 1 4 ([.enter true] ++ List.replicate 4 (.advance false) ++ [.tookCommit])
    .busy [] ++
  [.task .dispatch, .task (.birth 40 4 false), .task (.returned 4), .task (.complete 4 1 []),
    .task .retire, .task .retire] ++
  served .poll 1 5 [] (.born 9 ⟨9, 71, 0, 1⟩) [.completion none]

/-- A fork is prepared, executed and answered with its child. -/
theorem source_admission_contract_forked :
    ∃ c : Conn, c.Contract ∧
      ((∃ g, c.log.head? = some (.replied
        ⟨1, .complete, 0, true, 9, ⟨9, 71, 70, 1⟩, false, false, 0, true⟩ g)) ∧
        c.log.countP (fun e => e matches .memory 1 (57, [7])) = 1) := by
  have ran : (exec Conn.next Conn.new forked).any (fun c =>
      decide (c.log.head? = some (.replied
        ⟨1, .complete, 0, true, 9, ⟨9, 71, 70, 1⟩, false, false, 0, true⟩
        ⟨1, .complete, ⟨57, [7], 4, 1, []⟩, 4, 40, 4, false⟩)) &&
      decide (c.log.countP (fun e => e matches .memory 1 (57, [7])) = 1)) = true := by
    decide
  obtain ⟨c, run, check⟩ := exec_exhibits ran
  rw [Bool.and_eq_true] at check
  exact ⟨c, source_admission_contract run, ⟨_, of_decide_eq_true check.1⟩,
    of_decide_eq_true check.2⟩

end Vmctx.Gate
