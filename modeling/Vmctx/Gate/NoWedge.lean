import Vmctx.Gate.Ending
/-!
# A forwarded call neither wedges nor misfires

The contract of a call between `forward` and its source, in every run in which each `COMMIT` that
finds the call complete finds its slot retired. Without that condition it fails: `COMMIT` has then
released the call and still answers `EAGAIN`, the source takes the call for unreleased, and the next
`EXECUTE` closes the connection.
-/

namespace Vmctx.Gate

open Vmctx.System

variable {l : Link}

def Event.isEnd (t : Nat) : Event → Bool
  | .replied reply _ => reply.ticket = t ∧ reply.state = .complete
  | _ => false

theorem Justified.ends_once {log : List Event} {t : Nat} (justified : Justified log)
    (real : t ≠ 0) : log.countP (Event.isEnd t) ≤ 1 := by
  induction log with
  | nil => exact Nat.zero_le _
  | cons e pre ih =>
    obtain ⟨because, -, older⟩ := justified
    rw [List.countP_cons]
    cases kind : e.isEnd t with
    | false => exact ih older
    | true =>
      cases e with
      | replied reply gate =>
        have same : reply.ticket = t ∧ reply.state = .complete := of_decide_eq_true kind
        have open_ : Unfinished t pre := same.1 ▸ because.1 (same.1 ▸ real)
        have none : pre.countP (Event.isEnd t) = 0 := by
          rw [List.countP_eq_zero]
          intro e present told
          cases e with
          | replied r g =>
            have ended : r.ticket = t ∧ r.state = .complete := of_decide_eq_true told
            exact open_ r g present ended.1 ended.2
          | _ => cases told
        rw [none]
        decide
      | _ => cases kind

/-- What a forwarder and the source of its call have in common. -/
structure Link.Contract (l : Link) : Prop where
  /-- The loop of the forwarder is not broken off. -/
  accepted : ∀ exit, l.fwd.pc ≠ .broken exit
  /-- The source has failed no request. -/
  served : l.conn.pc ≠ .closed ∧ ∀ errno reply, l.conn.pc ≠ .failed errno reply
  /-- The local preparation is done at most once, and before every `EXECUTE`. -/
  orderly : Orderly l.fwd.done
  /-- The loop ends with the one completion of its ticket. -/
  completes : l.fwd.pc = .rests → l.fwd.done = [] ∨
    l.fwd.done.head? = some (.completed l.fwd.ticket) ∧
      l.fwd.done.countP ForwardEvent.isCompleted = 1
  /-- And has completed nothing before. -/
  open_ : l.fwd.pc ≠ .rests → l.fwd.done.countP ForwardEvent.isCompleted = 0
  /-- The source has sent that reply, and one such reply for a ticket. -/
  told : (∀ t, .completed t ∈ l.fwd.done → 1 ≤ l.conn.log.countP (Event.isEnd t)) ∧
    ∀ t, t ≠ 0 → l.conn.log.countP (Event.isEnd t) ≤ 1
  /-- While a call is forwarded, one of its two ends can take a step. -/
  moves : l.fwd.pc ≠ .rests →
    ∃ a, a.protocol = true ∧ LinkAct.Sound l a ∧ (l.next a).isSome = true
  /-- Once the native call is complete, the loop ends after a number of steps of the two ends that
  only refusals can extend, whatever the task and other controls do meanwhile. -/
  ends : Finished l → ∀ steps refusals last, Walk l steps refusals last →
    steps ≤ 36 * (refusals + 1)
  /-- When the slot is retired as well, only the door refuses a control. -/
  refusals : Finished l → l.conn.world.ctx.sysPending = false → ∀ fault l',
    LinkAct.Sound l (.conn (.advance fault)) → l.next (.conn (.advance fault)) = some l' →
    LinkAct.refuses l' (.conn (.advance fault)) = false

/-- In every run whose `COMMIT`s find the slot of a complete call retired, a forwarded call neither
wedges nor misfires. -/
theorem call_protocol_contract (run : PromptReached l) : l.Contract := by
  have sane := promptReached_sane run
  have good := sane.good
  constructor
  case accepted =>
    intro exit broken
    have phase := good.phase
    simp only [Phase, broken] at phase
  case served =>
    have place := good.steady.place
    constructor
    · intro closed
      rw [closed] at place
      exact place
    · intro errno reply failed
      rw [failed] at place
      exact place
  case orderly => exact sane.records.orderly
  case completes => exact sane.records.closed
  case open_ => exact sane.records.open_
  case told =>
    refine ⟨fun t ended => ?_, fun t real => good.conn.ledger.books.justified.ends_once real⟩
    obtain ⟨reply, gate, sent, ticket, state⟩ := sane.told t ended
    refine List.countP_pos_iff.mpr ⟨_, sent, ?_⟩
    exact decide_eq_true ⟨ticket, state⟩
  case moves => exact link_steps good
  case ends =>
    intro finished steps refusals last walk
    obtain ⟨-, ⟨-, bound⟩ | ⟨-, bound⟩⟩ := walk_bound good finished walk
    · exact bound
    · omega
  case refusals =>
    exact fun finished retired fault l' sound step =>
      retired_answers good finished retired sound step

/-! ## Runs of one call -/

def ConnAct.sound (c : Conn) : ConnAct → Bool
  | .enter authorized => authorized
  | .advance fault => !fault
  | .took (.ok binding) => !c.call.target.valid || decide (binding = c.call.target)
  | .took (.error _) | .birth (.failed _) | .task .exit | .task .bury => false
  | .birth (.born source binding) => decide (source ≠ 0) &&
      (!c.call.gate.childSharedMm || decide (binding.mm = c.call.target.mm))
  | .state dead => dead.isNone
  | .completion error => error.isNone
  | .send ok => ok
  | .task (.birth _ _ _) =>
    match c.world.ctx.task with
    | .dispatching nr _ => isCloneNr nr
    | _ => true
  | _ => true

def LinkAct.sound (l : Link) : LinkAct → Bool
  | .begin _ _ _ _ _ => decide (l.conn.call.next < ticketMax)
  | .deliver credit setcpu => credit.isNone && setcpu.isNone
  | .conn a => a.sound l.conn
  | .send | .receive => true

def LinkAct.prompt (l : Link) : LinkAct → Bool
  | .conn (.advance _) =>
    match l.conn.pc, l.conn.world.ctx.ctl with
    | .inCommit _, some (.settling _ _) => !l.conn.world.ctx.sysPending
    | _, _ => true
  | _ => true

theorem ConnAct.sound.holds {c : Conn} {a : ConnAct} (checked : a.sound c = true) : a.Sound c := by
  cases a with
  | advance fault | state dead | completion error =>
    simpa [ConnAct.sound, ConnAct.Sound] using checked
  | took snapshot =>
    cases snapshot with
    | error => cases checked
    | ok binding =>
      refine ⟨binding, rfl, fun valid => ?_⟩
      simpa [ConnAct.sound, valid] using checked
  | birth outcome =>
    intro errno
    cases outcome with
    | failed => cases checked
    | born source binding =>
      simp only [ConnAct.sound, Bool.and_eq_true, decide_eq_true_eq] at checked
      refine ⟨nofun, fun source' binding' same => ?_⟩
      cases same
      exact ⟨checked.1, fun shared => by simpa [shared] using checked.2⟩
    | busy | ended => exact ⟨nofun, nofun⟩
  | task a =>
    cases a with
    | exit | bury => cases checked
    | birth =>
      intro nr args at_
      simpa [ConnAct.sound, at_] using checked
    | _ => trivial
  | enter | send => exact checked
  | _ => trivial

theorem LinkAct.sound.holds {a : LinkAct} (checked : a.sound l = true) : LinkAct.Sound l a := by
  cases a with
  | begin | deliver credit setcpu => simpa [LinkAct.sound, LinkAct.Sound] using checked
  | conn a => exact ConnAct.sound.holds checked
  | send | receive => trivial

theorem LinkAct.prompt.holds {a : LinkAct} (checked : a.prompt l = true) : LinkAct.Prompt l a := by
  cases a with
  | conn a =>
    cases a with
    | advance fault =>
      intro reply rq told at_ settling
      simpa [LinkAct.prompt, at_, settling] using checked
    | _ => trivial
  | _ => trivial

/-- The steps of the source in a request; `inner` are those of its `COMMIT`. -/
def serves (steps : Nat) (inner : List ConnAct) (outcome : Admission.Birth)
    (last : List ConnAct) : List LinkAct :=
  List.map .conn ([.enter true] ++ List.replicate steps (.advance false) ++ [.took (.ok home)] ++
    inner ++ [.birth outcome, .state none] ++ last ++ [.send true])

def exchange (source : List LinkAct) : List LinkAct :=
  [.send, .deliver none none] ++ source ++ [.receive]

/-- A call from its `PREPARE` to the point where the executor sends `EXECUTE`. -/
def upToExecute (nr : Int) : List LinkAct :=
  [.conn (.task .ready), .begin 0 0 0 0 []] ++ exchange (serves 4 [] .busy []) ++
  [.conn (.task (.start nr)), .conn (.task (.admits nr [7]))] ++ exchange (serves 4 [] .busy [])

def clonedAcross : List LinkAct :=
  upToExecute 57 ++
  exchange (serves 4 ([.enter true] ++ List.replicate 4 (.advance false) ++ [.tookCommit])
    .busy []) ++
  List.map .conn [.task .dispatch, .task (.birth 40 4 false), .task (.returned 4),
    .task (.complete 4 1 []), .task .retire, .task .retire] ++
  exchange (serves 5 [] (.born 9 ⟨9, 71, 0, 1⟩) [.completion none])

/-- A call that clones is prepared, executed, polled and completed. -/
theorem call_protocol_contract_clone :
    ∃ l : Link, l.Contract ∧ l.fwd.pc = .rests ∧ l.fwd.childSeen = true ∧
      l.fwd.done = [.completed 1, .sent .poll, .sent .execute, .prepared 3, .sent .poll,
        .sent .prepare] := by
  have ran : (exec (fun l a => if a.sound l && a.prompt l then l.next a else none) Link.new
      clonedAcross).any (fun l => decide (l.fwd.pc = .rests ∧ l.fwd.childSeen = true ∧
        l.fwd.done = [.completed 1, .sent .poll, .sent .execute, .prepared 3, .sent .poll,
          .sent .prepare])) = true := by
    decide
  obtain ⟨l, run, check⟩ := exec_exhibits_guarded ran
  refine ⟨l, call_protocol_contract (run.mono fun before a after step => ⟨?_, step.2⟩),
    of_decide_eq_true check⟩
  have checked := Bool.and_eq_true_iff.mp step.1
  exact ⟨LinkAct.sound.holds checked.1, LinkAct.prompt.holds checked.2⟩

/-- The native call completes between the store of `RUNNING` and the load that `COMMIT` answers, and
the slot is retired after that load. -/
def overtaken : List LinkAct :=
  upToExecute 1 ++
  exchange (serves 4 ([.enter true, .advance false, .task .dispatch, .task (.returned 0),
    .task (.complete 0 0 []), .advance false, .advance false, .tookCommit]) .busy []) ++
  [.conn (.task .retire), .conn (.task .retire), .send, .deliver none none] ++
  List.map .conn ([.enter true] ++ List.replicate 5 (.advance false) ++
    [.took (.ok home), .failure none])

/-- A `COMMIT` that the task overtakes fails with `EPROTO`, although the call was released. -/
theorem overtaken_commit_closes :
    ∃ l : Link, LinkReached l ∧ l.conn.pc = .closed ∧ .failed .EPROTO ∈ l.conn.log ∧
      l.conn.world.ctx.gate.state = .complete ∧ l.conn.world.committed = [1] ∧
      l.fwd.pc = .waits := by
  have ran : (exec (fun l a => if LinkAct.sound l a then l.next a else none) Link.new
      overtaken).any (fun l => (l.conn.pc matches .closed) &&
        decide (.failed .EPROTO ∈ l.conn.log ∧ l.conn.world.ctx.gate.state = .complete ∧
          l.conn.world.committed = [1] ∧ l.fwd.pc = .waits)) = true := by
    decide
  obtain ⟨l, run, check⟩ := exec_exhibits_guarded ran
  rw [Bool.and_eq_true] at check
  refine ⟨l, run.mono fun before a after step => ⟨LinkAct.sound.holds step.1, step.2⟩, ?_,
    of_decide_eq_true check.2⟩
  have closed := check.1
  split at closed
  case h_1 at_ => exact at_
  case h_2 => cases closed

end Vmctx.Gate
