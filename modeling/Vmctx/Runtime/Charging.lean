import Vmctx.Gate.Connection
import Vmctx.Runtime.Credit
/-!
# Credits issued by a connection

A request that prepares a call, a boundary and an exception carry the executor's cumulative time,
and the source credits it before it does anything else. The requests that follow a prepared call
carry no time. A line joins a connection, the account of its task and a list of the credits that
were issued; no step reads the list.
-/

namespace Vmctx.Runtime

open Gate Vmctx.System List

/-! The controls of a credit. -/

def creditQuery (epoch total : Nat) : Query :=
  ⟨runtimeAbi, runtimeSize, .credit, 0, epoch, total, 0⟩

/-- One call of `ctl`: the native control, or an error of the context's record. -/
abbrev Try := Except Errno Env

def tryControl (s : Account) (q : Query) : Try → Account × Option Errno
  | .error error => (s, some error)
  | .ok env => (s.control env q, failureOf (vmctxCtlRuntime (some s.task) env q).2)

/-- `cpu_state_ctl`: a task that runs is tried again until the time is over. -/
def cpuStateCtl (s : Account) (q : Query) (first : Try) : List Try → Account × Option Errno
  | [] =>
    match tryControl s q first with
    | (s, some .EAGAIN) => (s, some .ETIMEDOUT)
    | done => done
  | second :: rest =>
    match tryControl s q first with
    | (s, some .EAGAIN) => cpuStateCtl s q second rest
    | done => done

/-! Lines. -/

inductive Origin
  | prepare (ticket : Nat)
  | boundary
  | exception
  deriving DecidableEq

structure Issue where
  origin : Origin
  epoch : Nat
  total : Nat
  deriving DecidableEq

structure Line where
  conn : Conn
  account : Account
  issued : List Issue

/-- `source_runtime_credit`. -/
def Line.credit (l : Line) (origin : Origin) (rq : CallRequest) (first : Try) (rest : List Try) :
    Line × Option Errno :=
  ({ l with
      account := (cpuStateCtl l.account (creditQuery rq.epoch rq.ns) first rest).1,
      issued := ⟨origin, rq.epoch, rq.ns⟩ :: l.issued },
    (cpuStateCtl l.account (creditQuery rq.epoch rq.ns) first rest).2)

def Line.goesOn (l : Line) (on : Bool) : Line :=
  if on then l else { l with conn := { l.conn with pc := .closed } }

inductive Label
  | request (rq : CallRequest) (first : Try) (rest : List Try) (setcpu : Option Errno)
  | boundary (rq : CallRequest) (first : Try) (rest : List Try) (on : Bool)
  | exception (rq : CallRequest) (snapshot : Bool) (first : Try) (rest : List Try) (on : Bool)
  | other (a : ConnAct)

def Line.request (l : Line) (rq : CallRequest) (first : Try) (rest : List Try)
    (setcpu : Option Errno) : Line :=
  match rq.op, l.conn.call.accepts rq with
  | .prepare, .ok () =>
    let issued := l.credit (.prepare (l.conn.call.next + 1)) rq first rest
    { issued.1 with conn := l.conn.request rq issued.2 setcpu }
  | _, _ => { l with conn := l.conn.request rq none setcpu }

def Line.boundary (l : Line) (rq : CallRequest) (first : Try) (rest : List Try) (on : Bool) :
    Line :=
  if l.conn.call.active = true ∨ rq.ticket ≠ 0 then l.goesOn false
  else if rq.decodes = false then l.goesOn on
  else (l.credit .boundary rq first rest).1.goesOn on

def Line.exception (l : Line) (rq : CallRequest) (snapshot : Bool) (first : Try) (rest : List Try)
    (on : Bool) : Line :=
  if rq.decodes = false then l.goesOn on
  else if snapshot = false then l.goesOn false
  else (l.credit .exception rq first rest).1.goesOn on

def Line.next (l : Line) : Label → Option Line
  | .request rq first rest setcpu =>
    match l.conn.pc with
    | .idle => some (l.request rq first rest setcpu)
    | _ => none
  | .boundary rq first rest on =>
    match l.conn.pc with
    | .idle => some (l.boundary rq first rest on)
    | _ => none
  | .exception rq snapshot first rest on =>
    match l.conn.pc with
    | .idle => some (l.exception rq snapshot first rest on)
    | _ => none
  | .other a =>
    match a with
    | .request _ _ _ => none
    | a => (l.conn.next a).map fun conn => { l with conn := conn }

abbrev Line.Step : Line → Label → Line → Prop := Computed Line.next

def Line.start (epoch quantum reported : Nat) : Line :=
  ⟨.new, .start epoch quantum reported, []⟩

/-! What one credit does. -/

variable {s : Account} {q : Query} {l l' : Line} {label : Label}

/-- What a credit adds to the log: controls with its argument, at most one of them accepted. -/
structure Adds (s : Account) (q : Query) (s' : Account) : Prop where
  kept : s.Kept → s'.Kept
  more : ∃ more, s'.log = more ++ s.log ∧ (∀ a ∈ more, a.query = q) ∧
    (more.filter Attempt.accepted).length ≤ 1

theorem again_not_accepted {env : Env}
    (again : failureOf (vmctxCtlRuntime (some s.task) env q).2 = some .EAGAIN) :
    ∃ a, (s.control env q).log = a :: s.log ∧ a.query = q ∧ a.accepted = false := by
  cases ran : enterRuntime s.task env q with
  | error error =>
    refine ⟨⟨q, some error, some error⟩, ?_, rfl, by simp [Attempt.accepted]⟩
    rw [control_error ran]
  | ok done =>
    -- A reply that is not written fails with another error.
    exfalso
    simp only [vmctxCtlRuntime, ran] at again
    split at again <;> cases again

theorem control_adds (s : Account) (env : Env) (q : Query) : Adds s q (s.control env q) := by
  refine ⟨fun kept => kept.control env q, ?_⟩
  refine ⟨[⟨q, failureOf (enterRuntime s.task env q),
    failureOf (vmctxCtlRuntime (some s.task) env q).2⟩], rfl, ?_, ?_⟩
  · intro a member
    rw [mem_singleton.mp member]
  · exact length_filter_le _ _

theorem Adds.refl (s : Account) (q : Query) : Adds s q s :=
  ⟨id, [], rfl, fun _ member => absurd member not_mem_nil, Nat.zero_le _⟩

theorem Adds.after {s s' s'' : Account} (first : s.Kept → s'.Kept) {a : Attempt}
    (log : s'.log = a :: s.log) (query : a.query = q) (no : a.accepted = false)
    (later : Adds s' q s'') : Adds s q s'' := by
  obtain ⟨more, logged, queries, once⟩ := later.more
  refine ⟨fun kept => later.kept (first kept), more ++ [a], ?_, ?_, ?_⟩
  · rw [logged, log, append_assoc]
    rfl
  · intro b member
    rcases mem_append.mp member with new | last
    · exact queries b new
    · rw [mem_singleton.mp last]
      exact query
  · rw [filter_append, filter_cons_of_neg (by rw [no]; decide)]
    simpa using once

theorem cpuStateCtl_adds (s : Account) (q : Query) (first : Try) (rest : List Try) :
    Adds s q (cpuStateCtl s q first rest).1 := by
  have one : ∀ (s : Account) (first : Try), Adds s q (tryControl s q first).1 := by
    intro s first
    cases first with
    | error error => exact .refl s q
    | ok env => exact control_adds s env q
  induction rest generalizing s first with
  | nil =>
    have adds := one s first
    unfold cpuStateCtl
    split
    · next same => rwa [same] at adds
    · exact adds
  | cons second rest ih =>
    have adds := one s first
    unfold cpuStateCtl
    split
    · next after same =>
      cases first with
      | error error =>
        cases same
        exact ih s second
      | ok env =>
        simp only [tryControl, Prod.mk.injEq] at same
        obtain ⟨rfl, again⟩ := same
        obtain ⟨a, log, query, no⟩ := again_not_accepted again
        exact Adds.after (fun kept => kept.control env q) log query no (ih _ second)
    · exact adds

/-! What one step does. -/

def Label.carries (l : Line) (issue : Issue) : Label → Prop
  | .request rq _ _ _ => rq.op = .prepare ∧ l.conn.call.active = false ∧
    issue = ⟨.prepare (l.conn.call.next + 1), rq.epoch, rq.ns⟩
  | .boundary rq _ _ _ => l.conn.call.active = false ∧ issue = ⟨.boundary, rq.epoch, rq.ns⟩
  | .exception rq _ _ _ _ => issue = ⟨.exception, rq.epoch, rq.ns⟩
  | .other _ => False

def Line.Idle (l l' : Line) : Prop := l'.issued = l.issued ∧ l'.account = l.account

structure Line.Issues (l : Line) (issue : Issue) (l' : Line) : Prop where
  listed : l'.issued = issue :: l.issued
  adds : Adds l.account (creditQuery issue.epoch issue.total) l'.account

theorem goesOn_idle (l : Line) (on : Bool) : l.Idle (l.goesOn on) := by
  unfold Line.goesOn
  split <;> exact ⟨rfl, rfl⟩

theorem credit_issues (l : Line) (origin : Origin) (rq : CallRequest) (first : Try)
    (rest : List Try) (on : Bool) :
    l.Issues ⟨origin, rq.epoch, rq.ns⟩ ((l.credit origin rq first rest).1.goesOn on) := by
  obtain ⟨issued, account⟩ := goesOn_idle (l.credit origin rq first rest).1 on
  constructor
  · rw [issued]
    rfl
  · rw [account]
    exact cpuStateCtl_adds _ _ first rest

theorem accepts_inactive {call : Admission} {rq : CallRequest} (ok : call.accepts rq = .ok ()) :
    call.active = false := by
  unfold Admission.accepts at ok
  split at ok
  · cases ok
  · next free =>
    rw [not_or] at free
    exact Bool.not_eq_true _ ▸ free.1

theorem step_issues (step : Line.Step l label l') :
    l.Idle l' ∨ ∃ issue, label.carries l issue ∧ l.Issues issue l' := by
  unfold Line.Step Computed Line.next at step
  split at step
  · next rq first rest setcpu =>
    split at step
    · cases step
      unfold Line.request
      split
      · next op accepted =>
        refine .inr ⟨_, ⟨op, accepts_inactive accepted, rfl⟩, rfl, ?_⟩
        exact cpuStateCtl_adds _ _ first rest
      · exact .inl ⟨rfl, rfl⟩
    · cases step
  · next rq first rest on =>
    split at step
    · cases step
      unfold Line.boundary
      split
      · exact .inl (goesOn_idle l false)
      next open_ =>
      split
      · exact .inl (goesOn_idle l on)
      · rw [not_or] at open_
        have free : l.conn.call.active = false := Bool.not_eq_true _ ▸ open_.1
        exact .inr ⟨_, ⟨free, rfl⟩, credit_issues l .boundary rq first rest on⟩
    · cases step
  · next rq snapshot first rest on =>
    split at step
    · cases step
      unfold Line.exception
      split
      · exact .inl (goesOn_idle l on)
      split
      · exact .inl (goesOn_idle l false)
      · exact .inr ⟨_, rfl, credit_issues l .exception rq first rest on⟩
    · cases step
  · split at step
    · cases step
    · obtain ⟨conn, -, rfl⟩ := Option.map_eq_some_iff.mp step
      exact .inl ⟨rfl, rfl⟩

/-! What every line keeps. -/

structure Line.Kept (l : Line) : Prop where
  account : l.account.Kept
  sourced : ∀ a ∈ l.account.log, ∃ issue ∈ l.issued, a.query = creditQuery issue.epoch issue.total

theorem Line.Kept.step (kept : l.Kept) (step : Line.Step l label l') : l'.Kept := by
  rcases step_issues step with ⟨issued, account⟩ | ⟨issue, -, listed, adds⟩
  · constructor
    · rw [account]
      exact kept.account
    · rw [account, issued]
      exact kept.sourced
  · obtain ⟨more, logged, queries, -⟩ := adds.more
    refine ⟨adds.kept kept.account, fun a member => ?_⟩
    rw [logged] at member
    rw [listed]
    rcases mem_append.mp member with new | old
    · exact ⟨issue, mem_cons_self, queries a new⟩
    · obtain ⟨earlier, known, same⟩ := kept.sourced a old
      exact ⟨earlier, mem_cons_of_mem _ known, same⟩

theorem Line.Kept.reached {epoch quantum reported : Nat}
    (run : Reach Line.Step (Line.start epoch quantum reported) l) : l.Kept := by
  have base : (Line.start epoch quantum reported).Kept :=
    ⟨Account.Kept.start epoch quantum reported, fun _ member => absurd member not_mem_nil⟩
  exact run.invariant (fun _ _ _ kept step => kept.step step) base

/-! The contract. -/

structure Line.Charges (l : Line) : Prop where
  account : l.account.Charges
  sourced : ∀ a ∈ l.account.log, ∃ issue ∈ l.issued, a.query = creditQuery issue.epoch issue.total
  /-- A step issues nothing and charges nothing, or it is a request and issues the one credit that
  the request carries, of whose controls at most one is accepted. -/
  once : ∀ label l', Line.Step l label l' →
    (l'.issued = l.issued ∧ l'.account = l.account) ∨
      ∃ issue, label.carries l issue ∧ l'.issued = issue :: l.issued ∧
        ∃ more, l'.account.log = more ++ l.account.log ∧
          (∀ a ∈ more, a.query = creditQuery issue.epoch issue.total) ∧
          (more.filter Attempt.accepted).length ≤ 1
  polls : ∀ rq first rest setcpu l', Line.Step l (.request rq first rest setcpu) l' →
    rq.op ≠ .prepare → l'.issued = l.issued ∧ l'.account = l.account
  during : ∀ label l', Line.Step l label l' → l.conn.call.active = true →
    (∀ rq snapshot first rest on, label ≠ .exception rq snapshot first rest on) →
    l'.issued = l.issued ∧ l'.account = l.account

theorem Line.Kept.charges (kept : l.Kept) : l.Charges := by
  refine ⟨kept.account.charges, kept.sourced, ?_, ?_, ?_⟩
  · intro label l' step
    rcases step_issues step with idle | ⟨issue, carried, listed, adds⟩
    · exact .inl idle
    · exact .inr ⟨issue, carried, listed, adds.more⟩
  · intro rq first rest setcpu l' step follows
    rcases step_issues step with idle | ⟨issue, ⟨prepare, -⟩, -⟩
    · exact idle
    · exact absurd prepare follows
  · intro label l' step active ordinary
    rcases step_issues step with idle | ⟨issue, carried, -⟩
    · exact idle
    · cases label with
      | request rq first rest setcpu =>
        rw [carried.2.1] at active
        cases active
      | boundary rq first rest on =>
        rw [carried.1] at active
        cases active
      | exception rq snapshot first rest on => exact absurd rfl (ordinary rq snapshot first rest on)
      | other a => exact carried.elim

/-- Execution time is charged exactly once, by any controls and by the requests of a connection. -/
structure ChargedOnce : Prop where
  /-- Any sequence of controls on a task to which no remote time was credited. -/
  controls : ∀ epoch quantum reported s,
    Reach Account.Step (Account.start epoch quantum reported) s → s.Charges
  /-- Any sequence of requests of a monitor, sent again or not. -/
  requests : ∀ epoch quantum reported l,
    Reach Line.Step (Line.start epoch quantum reported) l → l.Charges

/-- Time that a monitor credits is charged at most once, however often it is sent. -/
theorem runtime_charged_once : ChargedOnce := by
  constructor
  · intro epoch quantum reported s run
    have keeps : ∀ before label after, Account.Kept before → Account.Step before label after →
        Account.Kept after := by
      intro before label after kept step
      cases step
      exact kept.control label.1 label.2
    exact (Reach.invariant keeps (Account.Kept.start epoch quantum reported) run).charges
  · intro epoch quantum reported l run
    exact (Line.Kept.reached run).charges

end Vmctx.Runtime
