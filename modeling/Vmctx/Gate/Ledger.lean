import Vmctx.Gate.Connection
/-!
# The ledger of a connection

Each event of the log is justified by the events before it: a `COMMIT` follows the preparation of
the memory, which follows an observation of the admitted call, and so on. What `source_admission`
remembers in its flags is what the log has for the latest ticket; that is the invariant a step
keeps.
-/

namespace Vmctx.Gate

open List

/-! ## Justified logs -/

def Event.ticket : Event → Nat
  | .accepted t | .observed t _ _ | .memory t _ | .commits t | .committed t | .childEnded t => t
  | .replied reply _ => reply.ticket
  | .request _ | .credit | .setcpu | .failed _ => 0

def turnOp : List Event → Option CallOp
  | [] => none
  | .request op :: _ => some op
  | _ :: log => turnOp log

def Unfinished (t : Nat) (log : List Event) : Prop :=
  ∀ reply gate, .replied reply gate ∈ log → reply.ticket = t → reply.state ≠ .complete

def Unborn (t : Nat) (log : List Event) : Prop :=
  ∀ reply gate, .replied reply gate ∈ log → reply.ticket = t → reply.child = false

def Agreed (t : Nat) (target : MmBinding) (call : Call) (log : List Event) : Prop :=
  ∀ target' call', .observed t target' call' ∈ log → target' = target ∧ call' = call

def Justifies (pre : List Event) : Event → Prop
  -- The credit and `SETCPU` follow their own `PREPARE`, once, and the acceptance follows them.
  | .credit => pre.head? = some (.request .prepare)
  | .setcpu => pre.head? = some .credit
  | .accepted t => pre.head? = some .setcpu ∧ ∀ e ∈ pre, e.ticket < t
  | .observed t _ _ => Unfinished t pre
  -- The memory is prepared once, on `EXECUTE`, for the call just observed, before any `COMMIT`.
  | .memory t call =>
    turnOp pre = some .execute ∧ (∃ target, pre.head? = some (.observed t target call)) ∧
      (∀ call', .memory t call' ∉ pre) ∧ .commits t ∉ pre ∧ Unfinished t pre
  -- `COMMIT` needs the prepared memory and one binding and call in all observations.
  | .commits t =>
    turnOp pre = some .execute ∧
      (∃ target call, .memory t call ∈ pre ∧ Agreed t target call pre) ∧
      .committed t ∉ pre ∧ Unfinished t pre
  -- It succeeds once, and no birth has been published by then.
  | .committed t => .commits t ∈ pre ∧ .committed t ∉ pre ∧ Unborn t pre ∧ Unfinished t pre
  | .childEnded t => Unfinished t pre
  | .replied reply gate =>
    (reply.ticket ≠ 0 → Unfinished reply.ticket pre) ∧
      -- The completion of a live task follows the `COMMIT` and accounts for the birth.
      (reply.state = .complete → reply.ended = false →
        reply.ticket ≠ 0 ∧ .committed reply.ticket ∈ pre ∧
        (gate.childHostPid ≠ 0 →
          reply.child = true ∨ ¬Unborn reply.ticket pre ∨ .childEnded reply.ticket ∈ pre)) ∧
      -- A birth is published once; the reply of a live task has the `COMMIT` before it.
      (reply.child = true → reply.ticket ≠ 0 ∧ Unborn reply.ticket pre ∧
        (reply.ended = false → .committed reply.ticket ∈ pre))
  | .request _ | .failed _ => True

def Disagrees : List Event → Prop
  | .observed t target call :: pre => ¬Agreed t target call pre
  | _ => False

/-- Every event is justified, and a disagreement is followed by the failure of the step. -/
def Justified : List Event → Prop
  | [] => True
  | e :: pre => Justifies pre e ∧ (Disagrees pre → e = .failed .ESTALE) ∧ Justified pre

theorem Justified.split {post pre : List Event} {e : Event}
    (justified : Justified (post ++ e :: pre)) :
    Justifies pre e ∧ (Disagrees pre → e = .failed .ESTALE) := by
  induction post with
  | nil => exact ⟨justified.1, justified.2.1⟩
  | cons first rest ih => exact ih justified.2.2

/-! ## The invariant -/

structure Account (call : Admission) (log : List Event) : Prop where
  unprepared : call.prepared = false →
    (∀ c, .memory call.next c ∉ log) ∧ .commits call.next ∉ log
  prepared : call.prepared = true → .memory call.next call.admitted ∈ log
  fixed : call.prepared = true → call.target.valid = true
  uncommitted : call.committed = false → .committed call.next ∉ log
  committed : call.committed = true → .committed call.next ∈ log
  running : call.gate.state = .running → call.committed = true
  born : call.gate.childHostPid ≠ 0 → GateState.running.rank ≤ call.gate.state.rank
  unseen : call.birthSeen = false → Unborn call.next log
  paid : call.active = true → ¬Unborn call.next log → call.committed = true
  unfinished : call.active = true → call.next ≠ 0 ∧ Unfinished call.next log

structure Clean (call : Admission) (reply : CallReply) : Prop where
  ticket : reply.ticket = call.next
  child : reply.child = false
  live : reply.ended = false

/-- All observations of the ticket are the one that fixed its binding and call. -/
def Fixed (call : Admission) (log : List Event) : Prop :=
  ∀ target c, .observed call.next target c ∈ log →
    call.target.valid = true ∧ target = call.target ∧ c = call.admitted

/-- The accounted birth of the ticket is published, ended, or in the reply under way. -/
def Seen (call : Admission) (reply : CallReply) (log : List Event) : Prop :=
  call.birthSeen = true →
    reply.child = true ∨ ¬Unborn call.next log ∨ .childEnded call.next ∈ log

/-- A call in progress: its birth is accounted for and its observations agree. -/
structure Working (call : Admission) (reply : CallReply) (log : List Event) : Prop where
  active : call.active = true
  seen : Seen call reply log
  fixed : Fixed call log

structure Serving (call : Admission) (reply : CallReply) (op : CallOp) (log : List Event) :
    Prop extends Working call reply log, Clean call reply where
  turn : turnOp log = some op

structure Committing (call : Admission) (reply : CallReply) (log : List Event) :
    Prop extends Serving call reply .execute log where
  ready : call.prepared = true
  open_ : call.committed = false

/-- When a reply tells the end or the child of a call. -/
structure Publishes (call : Admission) (reply : CallReply) (log : List Event) : Prop where
  /-- It is about the ticket in progress. -/
  ticket : reply.ticket = call.next
  /-- The end of that ticket was not told yet. -/
  unfinished : call.next ≠ 0 ∧ Unfinished call.next log
  /-- Nor was its child, if it tells one. -/
  first : reply.child = true → Unborn call.next log
  /-- And its birth was seen. -/
  flag : reply.child = true → call.birthSeen = true

def Accounted (call : Admission) (reply : CallReply) (log : List Event) : Prop :=
  call.gate.childHostPid ≠ 0 →
    reply.child = true ∨ ¬Unborn call.next log ∨ .childEnded call.next ∈ log

def Spoiled (call : Admission) (reply : CallReply) (log : List Event) : Prop :=
  reply.ticket = 0 ∧ reply.child = false ∨ Publishes call reply log

def Answered (call : Admission) (answer : Answer) : Prop :=
  ∀ gate, answer = .ok (some gate) → gate.ticket = call.next ∧
    (gate.childHostPid ≠ 0 → GateState.running.rank ≤ gate.state.rank)

def Heard (call : Admission) (answer : Answer) : Prop :=
  Answered call answer ∧
    ∀ gate, answer = .ok (some gate) → gate.state = .running → call.committed = true

def Standing (call : Admission) (log : List Event) : ConnPc → Prop
  | .idle => call.active = true → Working call .zero log
  | .first op reply | .inFirst op reply => Serving call reply op log
  | .gotFirst op reply answer => Serving call reply op log ∧ Heard call answer
  | .commit reply => Committing call reply log
  | .inCommit reply => Committing call reply log ∧ .commits call.next ∈ log
  | .gotCommit reply answer =>
    Committing call reply log ∧ .commits call.next ∈ log ∧ Answered call answer
  | .birth reply => Working call reply log ∧ Clean call reply
  | .state reply =>
    Working call reply log ∧ Publishes call reply log ∧ Accounted call reply log ∧
      reply.ended = false ∧ (reply.child = true → call.gate.childHostPid ≠ 0)
  | .complete reply =>
    call.active = false ∧ Publishes call reply log ∧ Accounted call reply log ∧
      reply.ended = false ∧ call.committed = true ∧ reply.state = .complete
  | .failed _ reply => reply.ended = false ∧ Spoiled call reply log
  | .sending reply =>
    (reply.ended = true → call.active = false ∧ reply.state = .complete ∧
      Spoiled call reply log) ∧
    (reply.ended = false → Publishes call reply log ∧
      (reply.child = true → call.committed = true) ∧
      (reply.state = .complete →
        call.active = false ∧ call.committed = true ∧ Accounted call reply log) ∧
      (reply.state ≠ .complete → Working call reply log))
  | .closed => True

structure Books (call : Admission) (log : List Event) : Prop where
  ticket : call.gate.ticket = call.next
  upto : ∀ e ∈ log, e.ticket ≤ call.next
  justified : Justified log
  calm : ¬Disagrees log
  account : Account call log

/-- The invariant of a connection's log. -/
structure Ledger (c : Conn) : Prop where
  books : Books c.call c.log
  standing : Standing c.call c.log c.pc

theorem Ledger.at_ {c : Conn} {pc : ConnPc} (ledger : Ledger c) (at_ : c.pc = pc) :
    Standing c.call c.log pc :=
  at_ ▸ ledger.standing

/-! ## Longer logs -/

def Event.quiet : Event → Bool
  | .memory _ _ | .commits _ | .committed _ | .replied _ _ => false
  | .request _ | .credit | .setcpu | .accepted _ | .observed _ _ _ | .childEnded _ | .failed _ =>
    true

variable {call : Admission} {reply : CallReply} {log : List Event} {e : Event} {t : Nat}

theorem unfinished_cons (silent : ∀ r g, e ≠ .replied r g) :
    Unfinished t (e :: log) ↔ Unfinished t log := by
  have same (r : CallReply) (g : GateReply) : .replied r g ∈ e :: log ↔ .replied r g ∈ log := by
    simp [(silent r g).symm]
  simp only [Unfinished, same]

theorem unborn_cons (silent : ∀ r g, e ≠ .replied r g) : Unborn t (e :: log) ↔ Unborn t log := by
  have same (r : CallReply) (g : GateReply) : .replied r g ∈ e :: log ↔ .replied r g ∈ log := by
    simp [(silent r g).symm]
  simp only [Unborn, same]

theorem not_unborn_cons (born : ¬Unborn t log) : ¬Unborn t (e :: log) :=
  fun unborn => born fun r g old => unborn r g (mem_cons_of_mem _ old)

theorem Event.quiet.silent (quiet : e.quiet = true) (r : CallReply) (g : GateReply) :
    e ≠ .replied r g := by
  rintro rfl
  cases quiet

theorem Account.cons (account : Account call log) (silent : ∀ r g, e ≠ .replied r g)
    (early : call.prepared = false → (∀ c, e ≠ .memory call.next c) ∧ e ≠ .commits call.next)
    (open_ : call.committed = false → e ≠ .committed call.next) : Account call (e :: log) := by
  constructor
  case unprepared =>
    intro flag
    obtain ⟨memory, commits⟩ := account.unprepared flag
    exact ⟨fun c => not_mem_cons_of_ne_of_not_mem ((early flag).1 c).symm (memory c),
      not_mem_cons_of_ne_of_not_mem (early flag).2.symm commits⟩
  case prepared => exact fun flag => mem_cons_of_mem _ (account.prepared flag)
  case fixed => exact account.fixed
  case uncommitted =>
    exact fun flag => not_mem_cons_of_ne_of_not_mem (open_ flag).symm (account.uncommitted flag)
  case committed => exact fun flag => mem_cons_of_mem _ (account.committed flag)
  case running => exact account.running
  case born => exact account.born
  case unseen => exact fun flag => (unborn_cons silent).mpr (account.unseen flag)
  case paid => exact fun active born => account.paid active (mt (unborn_cons silent).mpr born)
  case unfinished =>
    intro active
    have old := account.unfinished active
    exact ⟨old.1, (unfinished_cons silent).mpr old.2⟩

theorem Account.quiet (account : Account call log) (quiet : e.quiet = true) :
    Account call (e :: log) := by
  have other {f : Event} (loud : f.quiet = false) : e ≠ f := by
    rintro rfl
    cases quiet.symm.trans loud
  exact account.cons (Event.quiet.silent quiet) (fun _ => ⟨fun _ => other rfl, other rfl⟩)
    fun _ => other rfl

theorem Seen.cons (seen : Seen call reply log) : Seen call reply (e :: log) := by
  intro flag
  obtain child | born | ended := seen flag
  · exact .inl child
  · exact .inr (.inl (not_unborn_cons born))
  · exact .inr (.inr (mem_cons_of_mem _ ended))

theorem Fixed.cons (fixed : Fixed call log) (other : ∀ t b c, e ≠ .observed t b c) :
    Fixed call (e :: log) := by
  intro target c observed
  obtain rfl | old := mem_cons.mp observed
  · exact absurd rfl (other _ _ _)
  · exact fixed target c old

theorem Working.cons (working : Working call reply log) (other : ∀ t b c, e ≠ .observed t b c) :
    Working call reply (e :: log) :=
  ⟨working.active, working.seen.cons, working.fixed.cons other⟩

theorem Publishes.cons (publishes : Publishes call reply log) (silent : ∀ r g, e ≠ .replied r g) :
    Publishes call reply (e :: log) :=
  ⟨publishes.ticket, ⟨publishes.unfinished.1, (unfinished_cons silent).mpr publishes.unfinished.2⟩,
    fun child => (unborn_cons silent).mpr (publishes.first child), publishes.flag⟩

theorem Spoiled.cons (spoiled : Spoiled call reply log) (silent : ∀ r g, e ≠ .replied r g) :
    Spoiled call reply (e :: log) :=
  spoiled.imp id fun publishes => publishes.cons silent

theorem Justified.cons (justified : Justified log) (calm : ¬Disagrees log)
    (because : Justifies log e) : Justified (e :: log) :=
  ⟨because, fun disagrees => absurd disagrees calm, justified⟩

variable {n : Nat} {c : Conn} {errno : Errno} {rq : CallRequest} {credit setcpu : Option Errno}
  {answer : Answer}

theorem upto_cons (upto : ∀ e ∈ log, Event.ticket e ≤ n) (here : e.ticket ≤ n) :
    ∀ f ∈ e :: log, f.ticket ≤ n := by
  intro f present
  obtain rfl | old := mem_cons.mp present
  · exact here
  · exact upto f old

theorem Books.quiet (books : Books call log) (quiet : e.quiet = true)
    (because : Justifies log e) (here : e.ticket ≤ call.next)
    (other : ∀ t b c, e ≠ .observed t b c) : Books call (e :: log) where
  ticket := books.ticket
  upto := upto_cons books.upto here
  justified := books.justified.cons books.calm because
  calm := by
    cases e with
    | observed t b c => exact absurd rfl (other t b c)
    | _ => exact id
  account := books.account.quiet quiet

theorem Books.fails (books : Books c.call c.log) (live : reply.ended = false)
    (spoiled : Spoiled c.call reply c.log) : Ledger (c.fails errno reply) where
  books := books.quiet rfl trivial (Nat.zero_le _) (fun _ _ _ => nofun)
  standing := ⟨live, spoiled.cons (fun _ _ => nofun)⟩

/-! ## Requests -/

theorem Books.fresh (books : Books call log) (asked : log.head? = some .setcpu) :
    Books (.fresh (call.next + 1)) (.accepted (call.next + 1) :: log) := by
  have below : ∀ f ∈ log, f.ticket < call.next + 1 :=
    fun f present => Nat.lt_succ_of_le (books.upto f present)
  have absent : ∀ f ∈ Event.accepted (call.next + 1) :: log, f.ticket = call.next + 1 →
      f = .accepted (call.next + 1) := by
    intro f present here
    obtain rfl | old := mem_cons.mp present
    · rfl
    · exact absurd here (Nat.ne_of_lt (below f old))
  have unborn : Unborn (call.next + 1) (.accepted (call.next + 1) :: log) :=
    fun r g present here => nomatch absent _ present here
  exact {
    ticket := rfl
    upto := upto_cons (fun f present => Nat.le_of_lt (below f present)) (Nat.le_refl _)
    justified := books.justified.cons books.calm ⟨asked, below⟩
    calm := id
    account := {
      unprepared := fun _ =>
        ⟨fun c present => (nomatch absent _ present rfl),
          fun present => nomatch absent _ present rfl⟩
      prepared := nofun
      fixed := nofun
      uncommitted := fun _ present => nomatch absent _ present rfl
      committed := nofun
      running := nofun
      born := fun child => absurd rfl child
      unseen := fun _ => unborn
      paid := fun _ born => absurd unborn born
      unfinished := fun _ => ⟨Nat.succ_ne_zero _,
        fun r g present here => nomatch absent _ present here⟩ } }

theorem continues_active (continued : call.continues rq = .ok ()) : call.active = true := by
  simp only [Admission.continues] at continued
  split at continued
  case isTrue => cases continued
  case isFalse fine => exact Bool.not_eq_false _ ▸ fun inactive => fine (.inl inactive)

theorem prepare_ledger (ledger : Ledger c) (op : rq.op = .prepare) :
    Ledger (c.request rq credit setcpu) := by
  have asked : Books c.call (.request rq.op :: c.log) :=
    ledger.books.quiet rfl trivial (Nat.zero_le _) (fun _ _ _ => nofun)
  rw [op] at asked
  -- The three native operations of an accepted `PREPARE` stand one upon the other.
  have credited : Books c.call (.credit :: .request .prepare :: c.log) :=
    asked.quiet rfl rfl (Nat.zero_le _) (fun _ _ _ => nofun)
  have set_ : Books c.call (.setcpu :: .credit :: .request .prepare :: c.log) :=
    credited.quiet rfl rfl (Nat.zero_le _) (fun _ _ _ => nofun)
  simp only [Conn.request, op, Conn.note]
  split
  case h_1 => exact asked.fails rfl (.inl ⟨rfl, rfl⟩)
  case h_2 =>
    cases credit with
    | some errno => exact credited.fails rfl (.inl ⟨rfl, rfl⟩)
    | none =>
      cases setcpu with
      | some errno => exact set_.fails rfl (.inl ⟨rfl, rfl⟩)
      | none =>
        have opened := set_.fresh rfl
        have fixed : Fixed (.fresh (c.call.next + 1))
            (.accepted (c.call.next + 1) :: .setcpu :: .credit :: .request .prepare :: c.log) := by
          intro target call observed
          have old : Event.observed (c.call.next + 1) target call ∈ c.log := by
            simpa [Admission.fresh] using observed
          exact absurd (ledger.books.upto _ old) (Nat.not_succ_le_self _)
        exact ⟨opened, ⟨⟨rfl, nofun, fixed⟩, ⟨rfl, rfl, rfl⟩, rfl⟩⟩

theorem follow_ledger (ledger : Ledger c) (at_ : c.pc = .idle) (op : rq.op ≠ .prepare) :
    Ledger (c.request rq credit setcpu) := by
  have asked : Books c.call (.request rq.op :: c.log) :=
    ledger.books.quiet rfl trivial (Nat.zero_le _) (fun _ _ _ => nofun)
  have standing := ledger.at_ at_
  have serves (continued : c.call.continues rq = .ok ()) :
      Serving c.call { CallReply.zero with ticket := c.call.gate.ticket } rq.op
        (.request rq.op :: c.log) :=
    ⟨⟨continues_active continued, (standing (continues_active continued)).seen.cons,
      (standing (continues_active continued)).fixed.cons (fun _ _ _ => nofun)⟩,
      ⟨asked.ticket, rfl, rfl⟩, rfl⟩
  cases asks : rq.op with
  | prepare => exact absurd asks op
  | execute | poll =>
    rw [asks] at asked serves
    simp only [Conn.request, asks, Conn.note]
    split
    case h_1 => exact asked.fails rfl (.inl ⟨rfl, rfl⟩)
    case h_2 continued => exact ⟨asked, serves continued⟩

/-! ## The first control -/

variable {gate : Option GateReply} {snapshot : MmBinding} {op : CallOp}

theorem Books.heard (books : Books call log) (heard : Heard call (.ok gate)) :
    Books (call.heard gate) log := by
  cases gate with
  | none => exact { books with account := { books.account with } }
  | some gate =>
    have answered := heard.1 gate rfl
    exact { books with
      ticket := answered.1
      account := { books.account with
        running := heard.2 gate rfl
        born := answered.2 } }

theorem Working.heard (working : Working call reply log) : Working (call.heard gate) reply log :=
  ⟨working.active, working.seen, working.fixed⟩

theorem fix_eq (valid : call.target.valid = true) : call.fix snapshot = call := by
  rw [Admission.fix, if_pos valid]

theorem fix_new (unset : call.target.valid = false) :
    call.fix snapshot = { call with target := snapshot, admitted := call.seen } := by
  rw [Admission.fix, if_neg (by rw [unset]; decide)]

theorem Account.fix (account : Account call log) : Account (call.fix snapshot) log := by
  by_cases valid : call.target.valid = true
  · rw [fix_eq valid]
    exact account
  · have unset : call.target.valid = false := by simpa using valid
    rw [fix_new unset]
    have unprepared (flag : call.prepared = true) : False := valid (account.fixed flag)
    exact { account with
      prepared := fun flag => (unprepared flag).elim
      fixed := fun flag => (unprepared flag).elim }

def Consistent (call : Admission) (snapshot : MmBinding) : Prop :=
  ¬(call.target.valid = true ∧ (call.target ≠ snapshot ∨ call.admitted ≠ call.seen))

theorem Consistent.fixed (consistent : Consistent call snapshot) (valid : snapshot.valid = true) :
    (call.fix snapshot).target.valid = true ∧ (call.fix snapshot).target = snapshot ∧
      (call.fix snapshot).admitted = call.seen := by
  by_cases set_ : call.target.valid = true
  · have same : call.target = snapshot ∧ call.admitted = call.seen := by
      simpa [Consistent, set_] using consistent
    rw [fix_eq set_]
    exact ⟨set_, same⟩
  · have unset : call.target.valid = false := by simpa using set_
    rw [fix_new unset]
    exact ⟨valid, rfl, rfl⟩

theorem fix_same : (call.fix snapshot).next = call.next ∧ (call.fix snapshot).gate = call.gate ∧
    (call.fix snapshot).active = call.active ∧ (call.fix snapshot).prepared = call.prepared ∧
    (call.fix snapshot).committed = call.committed ∧
    (call.fix snapshot).birthSeen = call.birthSeen := by
  rw [Admission.fix]
  split <;> exact ⟨rfl, rfl, rfl, rfl, rfl, rfl⟩

theorem Books.observes (books : Books call log) (working : Working call reply log)
    (consistent : Consistent call snapshot) (valid : snapshot.valid = true) :
    Books (call.fix snapshot) (.observed call.next snapshot call.seen :: log) ∧
      Working (call.fix snapshot) reply (.observed call.next snapshot call.seen :: log) := by
  obtain ⟨next, gate, active, -, -, birthSeen⟩ := @fix_same call snapshot
  have fixed := consistent.fixed valid
  have agreed : Agreed call.next snapshot call.seen log := by
    intro target c observed
    have old := working.fixed target c observed
    rw [fix_eq old.1] at fixed
    exact ⟨old.2.1.trans fixed.2.1, old.2.2.trans fixed.2.2⟩
  refine ⟨?_, ?_, ?_, ?_⟩
  · exact {
      ticket := by rw [gate, next]; exact books.ticket
      upto := by rw [next]; exact upto_cons books.upto (Nat.le_refl _)
      justified := books.justified.cons books.calm
        (books.account.unfinished working.active).2
      calm := fun disagrees => disagrees agreed
      account := books.account.fix.quiet rfl }
  · rw [active]
    exact working.active
  · have seen := working.seen.cons (e := .observed call.next snapshot call.seen)
    unfold Seen at seen ⊢
    rw [birthSeen, next]
    exact seen
  · intro target c observed
    rw [next] at observed
    obtain same | old := mem_cons.mp observed
    · cases same
      exact ⟨fixed.1, fixed.2.1.symm, fixed.2.2.symm⟩
    · have agrees := agreed target c old
      exact ⟨fixed.1, agrees.1.trans fixed.2.1.symm, agrees.2.trans fixed.2.2.symm⟩

theorem Books.remembers (here : n = call.next) (target : MmBinding) (books : Books call log)
    (active : call.active = true) (unprepared : call.prepared = false)
    (fixed : call.target.valid = true) (turn : turnOp log = some .execute)
    (head : log.head? = some (.observed n target call.admitted)) :
    Books { call with prepared := true } (.memory n call.admitted :: log) := by
  subst here
  have absent := books.account.unprepared unprepared
  have unfinished := books.account.unfinished active
  have silent (r : CallReply) (g : GateReply) :
      Event.memory call.next call.admitted ≠ .replied r g := nofun
  exact {
    ticket := books.ticket
    upto := upto_cons books.upto (Nat.le_refl _)
    justified := books.justified.cons books.calm
      ⟨turn, ⟨target, head⟩, absent.1, absent.2, unfinished.2⟩
    calm := id
    account := {
      unprepared := nofun
      prepared := fun _ => mem_cons_self
      fixed := fun _ => fixed
      uncommitted := fun flag => by simpa using books.account.uncommitted flag
      committed := fun flag => mem_cons_of_mem _ (books.account.committed flag)
      running := books.account.running
      born := books.account.born
      unseen := fun flag => (unborn_cons silent).mpr (books.account.unseen flag)
      paid := fun active born => books.account.paid active (mt (unborn_cons silent).mpr born)
      unfinished := fun _ => ⟨unfinished.1, (unfinished_cons silent).mpr unfinished.2⟩ } }

theorem Clean.publishes (clean : Clean call reply) (books : Books call log)
    (active : call.active = true) : Publishes call reply log :=
  have absent (child : reply.child = true) : False :=
    absurd (clean.child.symm.trans child) (by decide)
  ⟨clean.ticket, books.account.unfinished active, fun child => (absent child).elim,
    fun child => (absent child).elim⟩

theorem Working.sending (working : Working call reply log) (publishes : Publishes call reply log)
    (live : reply.ended = false) (early : reply.state ≠ .complete)
    (paid : reply.child = true → call.committed = true) : Standing call log (.sending reply) :=
  ⟨fun ended => absurd (live.symm.trans ended) (by decide),
    fun _ => ⟨publishes, paid, fun late => absurd late early, fun _ => working⟩⟩

theorem waitState_early (call : Admission) : call.waitState ≠ .complete := by
  unfold Admission.waitState
  split
  · decide
  · split <;> decide

theorem Books.stale (books : Books c.call c.log) (active : c.call.active = true)
    (live : reply.ended = false) (publishes : Publishes c.call reply c.log) :
    Ledger ({ c with log := .observed c.call.next snapshot c.call.seen :: c.log }.fails
      .ESTALE reply) where
  books := {
    ticket := books.ticket
    upto := upto_cons (upto_cons books.upto (Nat.le_refl _)) (Nat.zero_le _)
    justified := ⟨trivial, fun _ => rfl,
      books.justified.cons books.calm (books.account.unfinished active).2⟩
    calm := id
    account := (books.account.quiet rfl).quiet rfl }
  standing := ⟨live, .inr (Publishes.cons (Publishes.cons publishes (fun _ _ => nofun))
    (fun _ _ => nofun))⟩

/-- The observation of `ADMITTED` leads to a failure, to `COMMIT` or to the birth. -/
theorem admitted_ledger (books : Books c.call c.log) (serving : Serving c.call reply op c.log)
    (valid : snapshot.valid = true) :
    Ledger (c.follow (c.call.admittedPart op reply snapshot)) := by
  have working := serving.toWorking
  have clean := serving.toClean
  simp only [Admission.admittedPart]
  split
  case isTrue stale =>
    simp only [Conn.follow, Conn.note, List.map, Effect.event, books.ticket]
    exact books.stale working.active clean.live (clean.publishes books working.active)
  case isFalse agrees =>
    have consistent : Consistent c.call snapshot := agrees
    obtain ⟨entered, works⟩ := books.observes working consistent valid
    obtain ⟨next, -, -, prepared, committed, -⟩ := @fix_same c.call snapshot
    have fixed := consistent.fixed valid
    have clear : Clean (c.call.fix snapshot)
        { reply with prepareFlags := prepareFlagsOf (c.call.fix snapshot).admitted.1 } :=
      ⟨clean.ticket.trans next.symm, clean.child, clean.live⟩
    split
    case isTrue executes =>
      obtain ⟨rfl, uncommitted⟩ := executes
      have turn := serving.turn
      by_cases ready : c.call.prepared = true
      · -- A repeated `EXECUTE` finds the memory prepared.
        have same : { c.call.fix snapshot with prepared := true } = c.call.fix snapshot := by
          rw [← prepared] at ready
          rw [← ready]
        simp only [Conn.follow, Conn.note, List.map, Effect.event, books.ticket, ready, if_true,
          same]
        exact ⟨entered, ⟨⟨⟨works.active, works.seen, works.fixed⟩, clear, turn⟩,
          prepared.trans ready, committed.trans uncommitted⟩⟩
      · have unready : c.call.prepared = false := by simpa using ready
        have remembered := entered.remembers next.symm snapshot works.active
          (prepared.trans unready) fixed.1 turn (by rw [fixed.2.2]; rfl)
        have other (t : Nat) (b : MmBinding) (a : Call) :
            Event.memory c.call.next (c.call.fix snapshot).admitted ≠ .observed t b a := nofun
        have later := works.cons other
        simp only [Conn.follow, Conn.note, List.map, Effect.event, books.ticket, unready,
          Bool.false_eq_true, if_false]
        exact ⟨remembered, ⟨⟨⟨later.active, later.seen, later.fixed⟩,
          ⟨clear.ticket, clear.child, clear.live⟩, turn⟩, rfl, committed.trans uncommitted⟩⟩
    case isFalse passes =>
      simp only [Conn.follow, Conn.note, List.map, Effect.event, books.ticket]
      exact ⟨entered, ⟨works.active, works.seen, works.fixed⟩, clear⟩

theorem took_ledger {snapshot : Except Errno MmBinding} (ledger : Ledger c)
    (at_ : c.pc = .gotFirst op reply answer) (valid : Conn.snapshotValid snapshot = true) :
    Ledger (c.follow (c.call.afterFirst op reply answer snapshot)) := by
  have books := ledger.books
  obtain ⟨serving, heard⟩ := ledger.at_ at_
  have working := serving.toWorking
  have clean := serving.toClean
  simp only [Admission.afterFirst]
  split
  case h_1 errno =>
    split
    case isTrue =>
      have works : Working c.call { reply with state := c.call.waitState } c.log :=
        ⟨working.active, working.seen, working.fixed⟩
      have clear : Clean c.call { reply with state := c.call.waitState } :=
        ⟨clean.ticket, clean.child, clean.live⟩
      exact ⟨books, works.sending (clear.publishes books works.active) clear.live
        (waitState_early _) (fun child => absurd (clear.child.symm.trans child) (by decide))⟩
    case isFalse =>
      exact books.fails clean.live (.inr (clean.publishes books working.active))
  case h_2 gate =>
    have later := books.heard heard
    have works : Working (c.call.heard gate) reply c.log := working.heard
    have clear : Clean (c.call.heard gate) reply := ⟨clean.ticket, clean.child, clean.live⟩
    have publishes := clear.publishes later works.active
    have serves : Serving (c.call.heard gate) reply op c.log := ⟨works, clear, serving.turn⟩
    split
    case isTrue =>
      cases snapshot with
      | error errno =>
        exact later.fails (c := { c with call := c.call.heard gate }) clean.live (.inr publishes)
      | ok snapshot =>
        have ticket : c.call.gate.ticket = (c.call.heard gate).gate.ticket :=
          books.ticket.trans later.ticket.symm
        have same : c.follow ((c.call.heard gate).admittedPart op reply snapshot) =
            { c with call := c.call.heard gate }.follow
              ((c.call.heard gate).admittedPart op reply snapshot) := by
          simp only [Conn.follow, ticket]
        simp only
        rw [same]
        exact admitted_ledger (c := { c with call := c.call.heard gate }) later serves valid
    case isFalse =>
      split
      case isTrue =>
        exact later.fails (c := { c with call := c.call.heard gate }) clean.live (.inr publishes)
      case isFalse => exact ⟨later, works, clear⟩

/-! ## `COMMIT` -/

theorem Books.commits (books : Books call log) (committing : Committing call reply log) :
    Books call (.commits call.next :: log) := by
  have ready := committing.ready
  have agreed : Agreed call.next call.target call.admitted log :=
    fun target c observed => (committing.fixed target c observed).2
  exact {
    ticket := books.ticket
    upto := upto_cons books.upto (Nat.le_refl _)
    justified := books.justified.cons books.calm ⟨committing.turn,
      ⟨call.target, call.admitted, books.account.prepared ready, agreed⟩,
      books.account.uncommitted committing.open_, (books.account.unfinished committing.active).2⟩
    calm := id
    account := books.account.cons (fun _ _ => nofun)
      (fun flag => absurd (flag.symm.trans ready) (by decide)) fun _ => nofun }

theorem Committing.commits (committing : Committing call reply log) :
    Committing call reply (.commits call.next :: log) :=
  { committing with
    toWorking := committing.toWorking.cons (fun _ _ _ => nofun)
    turn := committing.turn }

theorem Books.committed (books : Books call log) (committing : Committing call reply log)
    (called : .commits call.next ∈ log) (answered : Answered call (.ok gate)) :
    Books { call with gate := gate.getD call.gate, committed := true }
      (.committed call.next :: log) := by
  have ready := committing.ready
  have unfinished := books.account.unfinished committing.active
  have silent (r : CallReply) (g : GateReply) : Event.committed call.next ≠ .replied r g := nofun
  have unborn : Unborn call.next log := Classical.byContradiction fun born =>
    absurd ((books.account.paid committing.active born).symm.trans committing.open_) (by decide)
  have argument : (gate.getD call.gate).ticket = call.next ∧
      ((gate.getD call.gate).childHostPid ≠ 0 →
        GateState.running.rank ≤ (gate.getD call.gate).state.rank) := by
    cases gate with
    | none => exact ⟨books.ticket, books.account.born⟩
    | some gate => exact answered gate rfl
  exact {
    ticket := argument.1
    upto := upto_cons books.upto (Nat.le_refl _)
    justified := books.justified.cons books.calm
      ⟨called, books.account.uncommitted committing.open_, unborn, unfinished.2⟩
    calm := id
    account := {
      unprepared := fun flag => absurd (flag.symm.trans ready) (by decide)
      prepared := fun flag => mem_cons_of_mem _ (books.account.prepared flag)
      fixed := books.account.fixed
      uncommitted := nofun
      committed := fun _ => mem_cons_self
      running := fun _ => rfl
      born := argument.2
      unseen := fun flag => (unborn_cons silent).mpr (books.account.unseen flag)
      paid := fun _ _ => rfl
      unfinished := fun _ => ⟨unfinished.1, (unfinished_cons silent).mpr unfinished.2⟩ } }

theorem tookCommit_ledger (ledger : Ledger c) (at_ : c.pc = .gotCommit reply answer) :
    Ledger ((c.note (Conn.returned c.call.gate.ticket answer)).follow
      (c.call.afterCommit reply answer)) := by
  have books := ledger.books
  obtain ⟨committing, called, answered⟩ := ledger.at_ at_
  have working := committing.toWorking
  have clean := committing.toClean
  simp only [Admission.afterCommit]
  cases answer with
  | error errno =>
    simp only
    split
    · exact ⟨books, working, clean⟩
    · exact books.fails clean.live (.inr (clean.publishes books working.active))
  | ok gate =>
    simp only [Conn.returned, books.ticket]
    have later := working.cons (e := .committed c.call.next) (fun _ _ _ => nofun)
    exact ⟨books.committed committing called answered,
      ⟨later.active, later.seen, later.fixed⟩, ⟨clean.ticket, clean.child, clean.live⟩⟩

/-! ## The birth and the state -/

theorem Books.sees (books : Books call log) : Books { call with birthSeen := true } log :=
  { books with account := { books.account with unseen := nofun } }

theorem Books.closes (books : Books call log) : Books { call with active := false } log :=
  { books with account := { books.account with
      paid := nofun
      unfinished := nofun } }

section

variable (ledger : Ledger c)
include ledger

theorem births_ledger {outcome : Admission.Birth} (at_ : c.pc = .birth reply) :
    Ledger (c.follow (c.call.birth reply outcome)) := by
  have books := ledger.books
  obtain ⟨working, clean⟩ := ledger.at_ at_
  have publishes := clean.publishes books working.active
  have absent (child : reply.child = true) : False :=
    absurd (clean.child.symm.trans child) (by decide)
  simp only [Admission.birth]
  split
  case isTrue accounted =>
    refine ⟨books, working, publishes, ?_, clean.live, fun child => (absent child).elim⟩
    exact fun child => working.seen (accounted.resolve_right child)
  case isFalse unaccounted =>
    have unseen : c.call.birthSeen = false := by
      simpa using fun seen => unaccounted (.inl seen)
    have child : c.call.gate.childHostPid ≠ 0 := fun none => unaccounted (.inr none)
    cases outcome with
    | busy =>
      have works : Working c.call { reply with state := .running } c.log :=
        ⟨working.active, working.seen, working.fixed⟩
      have clear : Clean c.call { reply with state := .running } :=
        ⟨clean.ticket, clean.child, clean.live⟩
      exact ⟨books, works.sending (clear.publishes books works.active) clear.live
        nofun (fun child => (absent child).elim)⟩
    | failed errno => exact books.fails clean.live (.inr publishes)
    | ended =>
      simp only [Conn.follow, Conn.note, List.map, Effect.event, books.ticket]
      have entered : Books c.call (.childEnded c.call.next :: c.log) :=
        books.quiet rfl (books.account.unfinished working.active).2 (Nat.le_refl _)
          (fun _ _ _ => nofun)
      have later := publishes.cons (e := .childEnded c.call.next) (fun _ _ => nofun)
      exact ⟨entered.sees,
        ⟨working.active, fun _ => .inr (.inr mem_cons_self),
          working.fixed.cons (fun _ _ _ => nofun)⟩,
        ⟨later.ticket, later.unfinished, later.first, fun child => (absent child).elim⟩,
        fun _ => .inr (.inr mem_cons_self), clean.live, fun child => (absent child).elim⟩
    | born source binding =>
      have spoiled : Publishes c.call { reply with childBinding := binding } c.log :=
        ⟨publishes.ticket, publishes.unfinished, publishes.first, publishes.flag⟩
      simp only
      split
      case isTrue => exact books.fails clean.live (.inr spoiled)
      case isFalse =>
        split
        case isTrue => exact books.fails clean.live (.inr spoiled)
        case isFalse =>
          exact ⟨books.sees, ⟨working.active, fun _ => .inl rfl, working.fixed⟩,
            ⟨publishes.ticket, publishes.unfinished, fun _ => books.account.unseen unseen,
              fun _ => rfl⟩,
            fun _ => .inl rfl, clean.live, fun _ => child⟩

theorem states_ledger {dead : Option Nat} (at_ : c.pc = .state reply) :
    Ledger (c.follow (c.call.finish reply dead)) := by
  have books := ledger.books
  obtain ⟨working, publishes, accounted, live, child⟩ := ledger.at_ at_
  have later (state : CallState) (early : state ≠ .complete)
      (paid : reply.child = true → c.call.committed = true) :
      Ledger { c with pc := .sending { reply with state := state } } := by
    have works : Working c.call { reply with state := state } c.log :=
      ⟨working.active, working.seen, working.fixed⟩
    exact ⟨books, works.sending
      ⟨publishes.ticket, publishes.unfinished, publishes.first, publishes.flag⟩ live early paid⟩
  have early (state : GateState) (at_ : c.call.gate.state = state)
      (before : state.rank < GateState.running.rank) (birth : reply.child = true) :
      c.call.committed = true := by
    have late := books.account.born (child birth)
    rw [at_] at late
    omega
  cases dead with
  | some status =>
    exact ⟨books.closes, fun _ => ⟨rfl, rfl, .inr
      ⟨publishes.ticket, publishes.unfinished, publishes.first, publishes.flag⟩⟩,
      nofun⟩
  | none =>
    simp only [Admission.finish]
    split
    case h_1 state => exact later .entering (by decide) (early _ state (by decide))
    case h_2 state => exact later .admitted (by decide) (early _ state (by decide))
    case h_3 state => exact later .running (by decide) (fun _ => books.account.running state)
    case h_4 state =>
      split
      case isTrue => exact books.fails live (.inr publishes)
      case isFalse open_ =>
        have committed : c.call.committed = true := by simpa using open_
        exact ⟨books.closes, rfl,
          ⟨publishes.ticket, publishes.unfinished, publishes.first, publishes.flag⟩, accounted,
          live, committed, rfl⟩
    case h_5 => exact books.fails live (.inr publishes)

/-! ## The reply -/

theorem completes_ledger (at_ : c.pc = .complete reply) :
    Ledger { c with pc := .sending { reply with data := true } } := by
  obtain ⟨inactive, publishes, accounted, live, committed, state⟩ := ledger.at_ at_
  exact ⟨ledger.books, fun ended => absurd (live.symm.trans ended) (by decide),
    fun _ => ⟨⟨publishes.ticket, publishes.unfinished, publishes.first, publishes.flag⟩,
      fun _ => committed, fun _ => ⟨inactive, committed, accounted⟩,
      fun early => absurd state early⟩⟩

theorem failure_ledger {ended : Option Nat} (at_ : c.pc = .failed errno reply) :
    Ledger (c.failure errno reply ended) := by
  obtain ⟨live, spoiled⟩ := ledger.at_ at_
  cases ended with
  | none => exact ⟨ledger.books, trivial⟩
  | some status =>
    simp only [Conn.failure]
    split
    case isFalse => exact ⟨ledger.books, trivial⟩
    case isTrue =>
      refine ⟨ledger.books.closes, fun _ => ⟨rfl, rfl, spoiled.imp id fun publishes => ?_⟩,
        nofun⟩
      exact ⟨publishes.ticket, publishes.unfinished, publishes.first, publishes.flag⟩

theorem sends_ledger (at_ : c.pc = .sending reply) :
    Ledger { c with pc := .idle, log := .replied reply c.call.gate :: c.log } := by
  have books := ledger.books
  have account := books.account
  obtain ⟨whenEnded, whenLive⟩ := ledger.at_ at_
  have spoiled : Spoiled c.call reply c.log := by
    cases ended : reply.ended with
    | true => exact (whenEnded ended).2.2
    | false => exact .inr (whenLive ended).1
  -- A call that stays in progress has a reply of a live task that is not its last.
  have open_ (active : c.call.active = true) :
      reply.ended = false ∧ reply.state ≠ .complete ∧ Working c.call reply c.log ∧
        (reply.child = true → c.call.committed = true) := by
    have live : reply.ended = false := by
      cases ended : reply.ended with
      | true => exact absurd ((whenEnded ended).1.symm.trans active) (by decide)
      | false => rfl
    obtain ⟨-, paid, last, working⟩ := whenLive live
    have early : reply.state ≠ .complete :=
      fun late => absurd ((last late).1.symm.trans active) (by decide)
    exact ⟨live, early, working early, paid⟩
  have unborn (none : reply.ticket = c.call.next → reply.child = false)
      (old : Unborn c.call.next c.log) :
      Unborn c.call.next (.replied reply c.call.gate :: c.log) := by
    intro r g present here
    obtain same | present := mem_cons.mp present
    · cases same
      exact none here
    · exact old r g present here
  refine ⟨?_, ?_⟩
  · exact {
      ticket := books.ticket
      upto := upto_cons books.upto (by
        obtain ⟨zero, -⟩ | publishes := spoiled
        · exact Nat.le_trans (Nat.le_of_eq zero) (Nat.zero_le _)
        · exact Nat.le_of_eq publishes.ticket)
      justified := books.justified.cons books.calm (by
        refine ⟨fun real => ?_, fun late live => ?_, fun birth => ?_⟩
        · obtain ⟨zero, -⟩ | publishes := spoiled
          · exact absurd zero real
          · rw [publishes.ticket]
            exact publishes.unfinished.2
        · obtain ⟨publishes, -, last, -⟩ := whenLive live
          obtain ⟨-, committed, accounted⟩ := last late
          rw [publishes.ticket]
          exact ⟨publishes.unfinished.1, account.committed committed, accounted⟩
        · obtain ⟨-, none⟩ | publishes := spoiled
          · exact absurd (none.symm.trans birth) (by decide)
          · rw [publishes.ticket]
            exact ⟨publishes.unfinished.1, publishes.first birth,
              fun live => account.committed ((whenLive live).2.1 birth)⟩)
      calm := id
      account := {
        unprepared := fun flag => by simpa using account.unprepared flag
        prepared := fun flag => mem_cons_of_mem _ (account.prepared flag)
        fixed := account.fixed
        uncommitted := fun flag => by simpa using account.uncommitted flag
        committed := fun flag => mem_cons_of_mem _ (account.committed flag)
        running := account.running
        born := account.born
        unseen := fun flag => unborn (fun _ => by
          obtain ⟨-, none⟩ | publishes := spoiled
          · exact none
          · cases birth : reply.child with
            | true => exact absurd ((publishes.flag birth).symm.trans flag) (by decide)
            | false => rfl) (account.unseen flag)
        paid := fun active born => by
          cases birth : reply.child with
          | true => exact (open_ active).2.2.2 birth
          | false => exact account.paid active fun old => born (unborn (fun _ => birth) old)
        unfinished := fun active => by
          refine ⟨(account.unfinished active).1, fun r g present here => ?_⟩
          obtain same | present := mem_cons.mp present
          · cases same
            exact (open_ active).2.1
          · exact (account.unfinished active).2 r g present here } }
  · intro active
    obtain ⟨live, early, working, -⟩ := open_ active
    have publishes := (whenLive live).1
    refine ⟨active, fun flag => ?_, working.fixed.cons (fun _ _ _ => nofun)⟩
    obtain birth | born | ended := working.seen flag
    · refine .inr (.inl fun unborn => ?_)
      have none := unborn reply c.call.gate mem_cons_self publishes.ticket
      exact absurd (none.symm.trans birth) (by decide)
    · exact .inr (.inl (not_unborn_cons born))
    · exact .inr (.inr (mem_cons_of_mem _ ended))

/-! ## Every step -/

theorem connMove_ledger {c' : Conn} {a : ConnAct} (move : ConnMove c a c')
    (heard : ∀ op reply answer, c'.pc = .gotFirst op reply answer → Heard c'.call answer)
    (answered : ∀ reply answer, c'.pc = .gotCommit reply answer → Answered c'.call answer) :
    Ledger c' := by
  have books := ledger.books
  have standing := ledger.standing
  cases move with
  | surrounds | advances => exact ⟨books, standing⟩
  | @requested rq credit setcpu at_ =>
    by_cases op : rq.op = .prepare
    · exact prepare_ledger ledger op
    · exact follow_ledger ledger at_ op
  | firstTurned at_ | firstReturns at_ =>
    rw [at_] at standing
    exact ⟨books, standing, heard _ _ _ rfl⟩
  | firstEnters at_ =>
    rw [at_] at standing
    exact ⟨books, standing⟩
  | commitTurned at_ =>
    rw [at_] at standing
    rw [books.ticket]
    exact ⟨books.commits standing, Committing.commits standing, mem_cons_self,
      answered _ _ rfl⟩
  | commitEnters at_ =>
    rw [at_] at standing
    rw [books.ticket]
    exact ⟨books.commits standing, Committing.commits standing, mem_cons_self⟩
  | commitReturns at_ =>
    rw [at_] at standing
    exact ⟨books, standing.1, standing.2, answered _ _ rfl⟩
  | took at_ valid => exact took_ledger ledger at_ valid
  | tookCommit at_ => exact tookCommit_ledger ledger at_
  | births at_ => exact births_ledger ledger at_
  | states at_ => exact states_ledger ledger at_
  | completes at_ => exact completes_ledger ledger at_
  | spoils at_ =>
    rw [at_] at standing
    exact books.fails standing.2.2.2.1 (.inr standing.2.1)
  | failure at_ => exact failure_ledger ledger at_
  | sends at_ => exact sends_ledger ledger at_
  | cut => exact ⟨books, trivial⟩

end

theorem new_ledger : Ledger Conn.new where
  books := {
    ticket := rfl
    upto := fun _ present => nomatch present
    justified := trivial
    calm := id
    account := {
      unprepared := fun _ => ⟨fun _ present => (nomatch present), fun present => nomatch present⟩
      prepared := fun flag => nomatch flag
      fixed := fun flag => nomatch flag
      uncommitted := fun _ present => nomatch present
      committed := fun flag => nomatch flag
      running := fun state => nomatch state
      born := fun child => absurd rfl child
      unseen := fun _ _ _ present => nomatch present
      paid := fun flag => nomatch flag
      unfinished := fun flag => nomatch flag } }
  standing := fun flag => nomatch flag

end Vmctx.Gate
