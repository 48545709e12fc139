import Vmctx.Machine
import Vmctx.System.Run
/-!
# Execution time credited to a service task

The executor measures how long a program has run there, and the source credits it to the task that
stands for the program. A credit carries the cumulative time and the epoch of the executor's task.
The kernel adds what exceeds the time credited before to the clocks of the task's group, and latches
the epoch of the first credit. The reply may be lost after that.

`userAdded` and `execAdded` are what was added to the group's clocks, and `log` lists the controls,
latest first, with what the kernel decided and what was returned; no control reads them.
-/

namespace Vmctx.Runtime

open List

/-! The control. -/

inductive Op
  | info
  | read
  | credit
  | arm
  | other (number : Nat)
  deriving DecidableEq

/-- `struct vmctx_runtime`. -/
structure Query where
  version : Nat
  size : Nat
  op : Op
  reserved : Nat
  epoch : Nat
  totalNs : Nat
  quantumNs : Nat
  deriving DecidableEq

def runtimeAbi : Nat := 1

def runtimeSize : Nat := 40

def runtimeQuantumNs : Nat := 10000000

def s64Max : Nat := 2 ^ 63 - 1

/-- What the control reads and writes of the task and of its context. -/
structure Task where
  remoteNs : Nat
  creditEpoch : Nat
  quantum : Nat
  reported : Nat
  userAdded : Nat
  execAdded : Nat
  deriving DecidableEq

structure Env where
  copyIn : Bool
  copyOut : Bool
  sighand : Bool
  alive : Bool
  sysPending : Bool
  service : Bool
  released : Bool
  evPending : Bool
  replyPending : Bool
  running : Bool
  sumExecRuntime : Nat
  usercode : Bool
  runtimeError : Option Errno
  startBoottime : Nat
  runtimeTotal : Nat

def creditStopped (t : Task) (env : Env) (q : Query) : Except Errno (Task × Query) :=
  if env.service = false then .error .EOPNOTSUPP
  else if t.creditEpoch ≠ 0 ∧ t.creditEpoch ≠ q.epoch then .error .ESTALE
  else if q.totalNs < t.remoteNs then .error .ESTALE
  else if (s64Max + 2 ^ 64 - env.sumExecRuntime) % 2 ^ 64 < q.totalNs then .error .EOVERFLOW
  else
    let delta := q.totalNs - t.remoteNs
    .ok ({ t with
      creditEpoch := q.epoch,
      remoteNs := q.totalNs,
      userAdded := t.userAdded + delta,
      execAdded := t.execAdded + delta }, q)

def reportStopped (t : Task) (env : Env) (q : Query) : Except Errno (Task × Query) :=
  if env.usercode = false then .error .EOPNOTSUPP
  else
    match env.runtimeError with
    | some error => .error error
    | none =>
      if q.op = .arm ∧ env.released = true then .error .EBUSY
      else
        let quantum := if q.op = .arm then q.quantumNs else t.quantum
        .ok ({ t with quantum := quantum, reported := env.runtimeTotal },
          { q with epoch := env.startBoottime, totalNs := env.runtimeTotal, quantumNs := quantum })

/-- `vmctx_runtime_stopped`. -/
def vmctxRuntimeStopped (t : Task) (env : Env) (q : Query) : Except Errno (Task × Query) :=
  if env.alive = false then .error .ESRCH
  else if env.sysPending = true ∨ (env.service = false ∧ env.released = true ∧
      (env.evPending = false ∨ env.replyPending = true)) then .error .EBUSY
  else if env.running = true then .error .EAGAIN
  else if q.op = .credit then creditStopped t env q
  else reportStopped t env q

def checkOp (env : Env) (q : Query) : Except Errno Unit :=
  match q.op with
  | .read => if q.epoch ≠ 0 ∨ q.totalNs ≠ 0 ∨ q.quantumNs ≠ 0 then .error .EINVAL else .ok ()
  | .arm =>
    if q.epoch ≠ 0 ∨ q.totalNs ≠ 0 ∨ q.quantumNs < 1000000 ∨ 100000000 < q.quantumNs then
      .error .EINVAL
    else .ok ()
  | .credit =>
    if q.epoch = 0 ∨ q.quantumNs ≠ 0 ∨ s64Max < q.totalNs then .error .EINVAL
    else if env.sighand = false then .error .ESRCH
    else .ok ()
  | _ => .error .EINVAL

def enterRuntime (t : Task) (env : Env) (q : Query) : Except Errno (Task × Query) := do
  if env.copyIn = false then throw .EFAULT
  if q.version ≠ runtimeAbi ∨ q.size ≠ runtimeSize ∨ q.reserved ≠ 0 then throw .EINVAL
  checkOp env q
  vmctxRuntimeStopped t env q

def infoRuntime (env : Env) (q : Query) : Except Errno Query :=
  if env.copyIn = false then .error .EFAULT
  else if q.version ≠ runtimeAbi ∨ q.size ≠ runtimeSize ∨ q.reserved ≠ 0 then .error .EINVAL
  else if q.op ≠ .info ∨ q.epoch ≠ 0 ∨ q.totalNs ≠ 0 ∨ q.quantumNs ≠ 0 then .error .EINVAL
  else if env.copyOut = false then .error .EFAULT
  else .ok { q with quantumNs := runtimeQuantumNs }

/-- `vmctx_ctl_runtime`. -/
def vmctxCtlRuntime (t : Option Task) (env : Env) (q : Query) :
    Option Task × Except Errno Query :=
  match t with
  | none => (none, infoRuntime env q)
  | some t =>
    match enterRuntime t env q with
    | .error error => (some t, .error error)
    | .ok (t, q) => (some t, if env.copyOut then .ok q else .error .EFAULT)

/-! Histories. -/

def failureOf {α : Type} : Except Errno α → Option Errno
  | .ok _ => none
  | .error error => some error

structure Attempt where
  query : Query
  verdict : Option Errno
  returned : Option Errno
  deriving DecidableEq

def Attempt.accepted (a : Attempt) : Bool := a.query.op = .credit && a.verdict = none

structure Account where
  task : Task
  log : List Attempt

def lastTotal (log : List Attempt) : Nat :=
  match log.find? Attempt.accepted with
  | some a => a.query.totalNs
  | none => 0

def Account.control (s : Account) (env : Env) (q : Query) : Account :=
  ⟨((vmctxCtlRuntime (some s.task) env q).1).getD s.task,
    ⟨q, failureOf (enterRuntime s.task env q),
      failureOf (vmctxCtlRuntime (some s.task) env q).2⟩ :: s.log⟩

def Account.next (s : Account) (label : Env × Query) : Option Account :=
  some (s.control label.1 label.2)

abbrev Account.Step : Account → Env × Query → Account → Prop := System.Computed Account.next

def Account.start (epoch quantum reported : Nat) : Account :=
  ⟨⟨0, epoch, quantum, reported, 0, 0⟩, []⟩

/-! What one control does. -/

variable {t t' : Task} {env : Env} {q q' : Query} {s s' : Account} {log : List Attempt}

theorem creditStopped_ok (ran : creditStopped t env q = .ok (t', q')) :
    (t.creditEpoch = 0 ∨ t.creditEpoch = q.epoch) ∧ t.remoteNs ≤ q.totalNs ∧
      q.totalNs ≤ (s64Max + 2 ^ 64 - env.sumExecRuntime) % 2 ^ 64 ∧ t' = { t with
        creditEpoch := q.epoch,
        remoteNs := q.totalNs,
        userAdded := t.userAdded + (q.totalNs - t.remoteNs),
        execAdded := t.execAdded + (q.totalNs - t.remoteNs) } := by
  unfold creditStopped at ran
  split at ran
  · cases ran
  split at ran
  · cases ran
  next epoch =>
  split at ran
  · cases ran
  next total =>
  split at ran
  · cases ran
  next overflow =>
  cases ran
  exact ⟨by omega, Nat.not_lt.mp total, Nat.not_lt.mp overflow, rfl⟩

theorem reportStopped_ok (ran : reportStopped t env q = .ok (t', q')) :
    ∃ quantum reported, t' = { t with quantum := quantum, reported := reported } := by
  unfold reportStopped at ran
  split at ran
  · cases ran
  split at ran
  · cases ran
  split at ran
  · cases ran
  cases ran
  exact ⟨_, _, rfl⟩

theorem enterRuntime_ok (ran : enterRuntime t env q = .ok (t', q')) :
    checkOp env q = .ok () ∧ vmctxRuntimeStopped t env q = .ok (t', q') := by
  unfold enterRuntime at ran
  by_cases read : env.copyIn = false
  · rw [if_pos read] at ran
    cases ran
  by_cases shape : q.version ≠ runtimeAbi ∨ q.size ≠ runtimeSize ∨ q.reserved ≠ 0
  · rw [if_neg read, if_pos shape] at ran
    cases ran
  rw [if_neg read, if_neg shape] at ran
  change (checkOp env q >>= fun _ => vmctxRuntimeStopped t env q) = _ at ran
  cases checked : checkOp env q with
  | error error =>
    rw [checked] at ran
    cases ran
  | ok _ =>
    rw [checked] at ran
    exact ⟨rfl, ran⟩

theorem vmctxRuntimeStopped_ok (ran : vmctxRuntimeStopped t env q = .ok (t', q')) :
    env.sysPending ≠ true ∧ env.running ≠ true ∧
      ((q.op = .credit ∧ creditStopped t env q = .ok (t', q')) ∨
        (q.op ≠ .credit ∧ reportStopped t env q = .ok (t', q'))) := by
  unfold vmctxRuntimeStopped at ran
  split at ran
  · cases ran
  split at ran
  · cases ran
  next free =>
  split at ran
  · cases ran
  next parked =>
  refine ⟨fun busy => free (.inl busy), parked, ?_⟩
  split at ran
  · next credit => exact .inl ⟨credit, ran⟩
  · next other => exact .inr ⟨other, ran⟩

theorem checkOp_epoch (checked : checkOp env q = .ok ()) (credit : q.op = .credit) :
    q.epoch ≠ 0 := by
  unfold checkOp at checked
  rw [credit] at checked
  intro none_
  rw [none_] at checked
  cases checked

/-- What a control leaves: nothing is charged, or a credit is accepted. -/
inductive Outcome (s : Account) (q : Query) : Account → Prop
  | refused (error : Errno) (returned : Option Errno) :
      Outcome s q ⟨s.task, ⟨q, some error, returned⟩ :: s.log⟩
  | reported (other : q.op ≠ .credit) (quantum reported : Nat) (returned : Option Errno) :
      Outcome s q ⟨{ s.task with quantum := quantum, reported := reported },
        ⟨q, none, returned⟩ :: s.log⟩
  | credited (op : q.op = .credit) (real : q.epoch ≠ 0)
      (epoch : s.task.creditEpoch = 0 ∨ s.task.creditEpoch = q.epoch)
      (total : s.task.remoteNs ≤ q.totalNs) (returned : Option Errno) :
      Outcome s q ⟨{ s.task with
        creditEpoch := q.epoch,
        remoteNs := q.totalNs,
        userAdded := s.task.userAdded + (q.totalNs - s.task.remoteNs),
        execAdded := s.task.execAdded + (q.totalNs - s.task.remoteNs) },
        ⟨q, none, returned⟩ :: s.log⟩

theorem control_error {error : Errno} (ran : enterRuntime s.task env q = .error error) :
    s.control env q = ⟨s.task, ⟨q, some error, some error⟩ :: s.log⟩ := by
  simp [Account.control, vmctxCtlRuntime, ran, failureOf]

theorem control_ok (ran : enterRuntime s.task env q = .ok (t', q')) :
    ∃ returned, s.control env q = ⟨t', ⟨q, none, returned⟩ :: s.log⟩ := by
  refine ⟨failureOf (vmctxCtlRuntime (some s.task) env q).2, ?_⟩
  simp [Account.control, vmctxCtlRuntime, ran, failureOf]

theorem control_outcome (s : Account) (env : Env) (q : Query) : Outcome s q (s.control env q) := by
  cases ran : enterRuntime s.task env q with
  | error error =>
    rw [control_error ran]
    exact .refused error _
  | ok done =>
    obtain ⟨t', q'⟩ := done
    obtain ⟨returned, after⟩ := control_ok ran
    obtain ⟨checked, stopped⟩ := enterRuntime_ok ran
    rw [after]
    obtain ⟨-, -, ⟨credit, charged⟩ | ⟨other, told⟩⟩ := vmctxRuntimeStopped_ok stopped
    · obtain ⟨epoch, total, -, rfl⟩ := creditStopped_ok charged
      exact .credited credit (checkOp_epoch checked credit) epoch total returned
    · obtain ⟨quantum, reported, rfl⟩ := reportStopped_ok told
      exact .reported other quantum reported returned

/-! What every history keeps. -/

structure Account.Kept (s : Account) : Prop where
  remote : s.task.remoteNs = lastTotal s.log
  user : s.task.userAdded = s.task.remoteNs
  exec : s.task.execAdded = s.task.remoteNs
  rising : (s.log.filter Attempt.accepted).Pairwise fun later earlier =>
    earlier.query.totalNs ≤ later.query.totalNs
  latched : ∀ a ∈ s.log, a.accepted = true → a.query.epoch = s.task.creditEpoch ∧
    s.task.creditEpoch ≠ 0

variable {a : Attempt}

theorem lastTotal_cons_of_not (no : a.accepted = false) : lastTotal (a :: log) = lastTotal log := by
  unfold lastTotal
  rw [List.find?_cons_of_neg (by rw [no]; decide)]

theorem lastTotal_cons_of (yes : a.accepted = true) : lastTotal (a :: log) = a.query.totalNs := by
  unfold lastTotal
  rw [List.find?_cons_of_pos yes]

theorem le_lastTotal (rising : (log.filter Attempt.accepted).Pairwise fun later earlier =>
    earlier.query.totalNs ≤ later.query.totalNs) (member : a ∈ log) (yes : a.accepted = true) :
    a.query.totalNs ≤ lastTotal log := by
  induction log with
  | nil => exact absurd member not_mem_nil
  | cons first log ih =>
    cases accepted : first.accepted with
    | true =>
      rw [filter_cons_of_pos accepted, pairwise_cons] at rising
      rw [lastTotal_cons_of accepted]
      rcases mem_cons.mp member with rfl | old
      · exact Nat.le_refl _
      · exact rising.1 a (mem_filter.mpr ⟨old, yes⟩)
    | false =>
      rw [filter_cons_of_neg (by rw [accepted]; decide)] at rising
      rw [lastTotal_cons_of_not accepted]
      rcases mem_cons.mp member with rfl | old
      · rw [accepted] at yes
        cases yes
      · exact ih rising old

theorem Account.Kept.idle (kept : s.Kept) (no : a.accepted = false) {quantum reported : Nat} :
    Account.Kept ⟨{ s.task with quantum := quantum, reported := reported }, a :: s.log⟩ := by
  refine ⟨?_, kept.user, kept.exec, ?_, ?_⟩
  · rw [lastTotal_cons_of_not no]
    exact kept.remote
  · rw [filter_cons_of_neg (by rw [no]; decide)]
    exact kept.rising
  · intro other member yes
    rcases mem_cons.mp member with rfl | old
    · rw [no] at yes
      cases yes
    · exact kept.latched other old yes

theorem Account.Kept.control (kept : s.Kept) (env : Env) (q : Query) : (s.control env q).Kept := by
  have outcome := control_outcome s env q
  generalize s.control env q = after at outcome
  cases outcome with
  | refused error returned => exact kept.idle (by simp [Attempt.accepted])
  | reported other quantum reported returned => exact kept.idle (by simp [Attempt.accepted, other])
  | credited op real epoch total returned =>
    have yes : (⟨q, none, returned⟩ : Attempt).accepted = true := by simp [Attempt.accepted, op]
    have user := kept.user
    have exec := kept.exec
    have remote := kept.remote
    refine ⟨?_, ?_, ?_, ?_, ?_⟩
    · rw [lastTotal_cons_of yes]
    · change s.task.userAdded + (q.totalNs - s.task.remoteNs) = q.totalNs
      omega
    · change s.task.execAdded + (q.totalNs - s.task.remoteNs) = q.totalNs
      omega
    · rw [filter_cons_of_pos yes, pairwise_cons]
      refine ⟨fun earlier member => ?_, kept.rising⟩
      obtain ⟨old, accepted⟩ := mem_filter.mp member
      have below := le_lastTotal kept.rising old accepted
      change earlier.query.totalNs ≤ q.totalNs
      omega
    · intro a member accepted
      refine ⟨?_, real⟩
      rcases mem_cons.mp member with rfl | old
      · rfl
      · obtain ⟨same, latched⟩ := kept.latched a old accepted
        exact same.trans (epoch.resolve_left latched)

theorem Account.Kept.start (epoch quantum reported : Nat) :
    (Account.start epoch quantum reported).Kept :=
  ⟨rfl, rfl, rfl, .nil, fun _ member => absurd member not_mem_nil⟩

/-! The contract. -/

structure Account.Charges (s : Account) : Prop where
  exact_ : s.task.userAdded = lastTotal s.log ∧ s.task.execAdded = lastTotal s.log
  rising : (s.log.filter Attempt.accepted).Pairwise fun later earlier =>
    earlier.query.totalNs ≤ later.query.totalNs
  epochs : ∀ a ∈ s.log, ∀ b ∈ s.log, a.accepted = true → b.accepted = true →
    a.query.epoch = b.query.epoch
  rejected : ∀ env q error, enterRuntime s.task env q = .error error →
    (s.control env q).task = s.task
  /-- A credit is rejected if the task is busy or runs, and if its epoch is stale, its total is
  smaller than the last or it overflows. -/
  rejects : ∀ env q, q.op = .credit → (env.sysPending = true ∨ env.running = true ∨
      (s.task.creditEpoch ≠ 0 ∧ q.epoch ≠ s.task.creditEpoch) ∨ q.totalNs < lastTotal s.log ∨
      (s64Max + 2 ^ 64 - env.sumExecRuntime) % 2 ^ 64 < q.totalNs) →
    ∃ error, enterRuntime s.task env q = .error error
  repeats : ∀ a, s.log.find? Attempt.accepted = some a → ∀ env,
    (s.control env a.query).task = s.task

theorem Account.Kept.charges (kept : s.Kept) : s.Charges := by
  refine ⟨?_, kept.rising, ?_, ?_, ?_, ?_⟩
  · rw [← kept.remote]
    exact ⟨kept.user, kept.exec⟩
  · intro a first b second yes also
    exact (kept.latched a first yes).1.trans (kept.latched b second also).1.symm
  · intro env q error refused
    rw [control_error refused]
  · intro env q op bad
    cases ran : enterRuntime s.task env q with
    | error error => exact ⟨error, rfl⟩
    | ok done =>
      exfalso
      obtain ⟨free, parked, ⟨-, charged⟩ | ⟨other, -⟩⟩ :=
        vmctxRuntimeStopped_ok (enterRuntime_ok ran).2
      · obtain ⟨epoch, total, fits, -⟩ := creditStopped_ok charged
        rw [kept.remote] at total
        rcases bad with busy | runs | ⟨set, stale⟩ | smaller | overflows
        · exact free busy
        · exact parked runs
        · exact stale (epoch.resolve_left set).symm
        · omega
        · omega
      · exact other op
  · intro a found env
    have yes : a.accepted = true := List.find?_some found
    have member := mem_of_find?_eq_some found
    have last : lastTotal s.log = a.query.totalNs := by
      unfold lastTotal
      rw [found]
    have op : a.query.op = .credit := by
      simp only [Attempt.accepted, Bool.and_eq_true, decide_eq_true_eq] at yes
      exact yes.1
    have epoch := (kept.latched a member yes).1
    have remote := kept.remote.trans last
    have outcome := control_outcome s env a.query
    generalize s.control env a.query = after at outcome
    cases outcome with
    | refused error returned => rfl
    | reported other quantum reported returned => exact absurd op other
    | credited op real epochs total returned =>
      rw [epoch, ← remote, Nat.sub_self]
      rfl

def parked (copyOut : Bool) : Env where
  copyIn := true
  copyOut := copyOut
  sighand := true
  alive := true
  sysPending := false
  service := true
  released := false
  evPending := false
  replyPending := false
  running := false
  sumExecRuntime := 0
  usercode := false
  runtimeError := none
  startBoottime := 0
  runtimeTotal := 0

-- A credit whose reply was lost is repeated, and a later one adds the difference.
example : (((((Account.start 0 0 0).control (parked false) ⟨1, 40, .credit, 0, 3, 5, 0⟩).control
    (parked true) ⟨1, 40, .credit, 0, 3, 5, 0⟩).control
    (parked true) ⟨1, 40, .credit, 0, 3, 9, 0⟩).task) = ⟨9, 3, 0, 0, 9, 9⟩ := by
  decide +kernel

end Vmctx.Runtime
