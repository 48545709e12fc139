import Vmctx.Custody.Invariant
/-!
# Transfer tickets under replay

A monitor repeats a control whose reply it did not receive. The outcome of a capture and of a
settlement is kept in the ticket: `Kept` says which fields of a ticket never change again, a step
lemma shows that every section respects it, and a run lemma carries it to every later state in which
the ticket still exists. The contract collects what the controls answer from those fields, that the
native capture and the record change of an acknowledgement happen at most once, and what `FORGET`
and the exit of a thread do.
-/

namespace Vmctx.Custody

open Kernel Vmctx.System Function

variable {k k' : Kernel} {a : Act} {reply : Reply} {id : Nat} {t t' : Transfer}

structure Transfer.Kept (t t' : Transfer) : Prop where
  identity : t'.owner = t.owner ∧ t'.page = t.page ∧ t'.mmIdentity = t.mmIdentity
  outcome : t.attempted = true → t.pc.running = false → t'.attempted = true ∧
    t'.pc.running = false ∧ t'.captureResult = t.captureResult ∧ t'.result = t.result ∧
    t'.bytes = t.bytes
  settled : t.acknowledged = true → t'.acknowledged = true ∧ t'.ackResult = t.ackResult

theorem Transfer.Kept.refl (t : Transfer) : t.Kept t :=
  ⟨⟨rfl, rfl, rfl⟩, fun attempted ended => ⟨attempted, ended, rfl, rfl, rfl⟩,
    fun settled => ⟨settled, rfl⟩⟩

theorem Transfer.Kept.trans {t'' : Transfer} (first : t.Kept t') (second : t'.Kept t'') :
    t.Kept t'' where
  identity := by
    obtain ⟨owner, page, identity⟩ := second.identity
    rw [owner, page, identity]
    exact first.identity
  outcome attempted ended := by
    obtain ⟨attempted', ended', result', served', bytes'⟩ := first.outcome attempted ended
    obtain ⟨attempted'', ended'', result'', served'', bytes''⟩ :=
      second.outcome attempted' ended'
    exact ⟨attempted'', ended'', by rw [result'', result'], by rw [served'', served'],
      by rw [bytes'', bytes']⟩
  settled done := by
    obtain ⟨done', result'⟩ := first.settled done
    obtain ⟨done'', result''⟩ := second.settled done'
    exact ⟨done'', by rw [result'', result']⟩

theorem Change.kept {s' : PageState} (formed : t.Formed) (change : Change k id t a t' s') :
    t.Kept t' := by
  have fresh := formed.replying
  have running := formed.running
  constructor
  · cases change <;> exact ⟨rfl, rfl, rfl⟩
  · intro attempted ended
    cases change <;> simp_all [TransferPc.running, TransferPc.capturing]
  · intro settled
    cases change <;> simp_all [TransferPc.running, TransferPc.capturing]

theorem step_next_le (ran : step k a = some (k', reply)) : k.transferNext ≤ k'.transferNext := by
  cases step_tickets ran with
  | untouched _ _ _ next | begun _ _ _ _ next | changed _ _ _ _ _ next | freed _ _ _ _ _ next
  | disposed _ _ _ _ _ next => omega
  | exited _ exits =>
    obtain ⟨-, -, next, -⟩ := exit_listed exits
    omega

/-- A ticket with a number already given out was there before, and is as it was, changed, or
poisoned. -/
theorem ticket_origin (ran : step k a = some (k', reply)) (spent : id ≤ k.transferNext)
    (after : k'.transfers id = some t') :
    ∃ t, k.transfers id = some t ∧ (t' = t ∨ (∃ s', Change k id t a t' s') ∨
      ∃ poisoned, t' = { t with poisoned := poisoned }) := by
  cases step_tickets ran with
  | untouched _ transfers =>
    rw [transfers] at after
    exact ⟨t', after, .inl rfl⟩
  | begun _ _ transfers =>
    rw [transfers, update_of_ne (by omega)] at after
    exact ⟨t', after, .inl rfl⟩
  | changed found change _ transfers =>
    rw [transfers, update_apply] at after
    split at after
    · next own =>
      cases after
      subst own
      exact ⟨_, found, .inr (.inl ⟨_, change⟩)⟩
    · exact ⟨t', after, .inl rfl⟩
  | freed _ _ _ transfers | disposed _ _ _ transfers =>
    rw [transfers, update_apply] at after
    split at after
    · cases after
    · exact ⟨t', after, .inl rfl⟩
  | exited _ exits =>
    obtain ⟨before, poisoned, found, same⟩ := exit_tickets exits after
    exact ⟨before, found, .inr (.inr ⟨poisoned, same⟩)⟩

theorem Kernel.Good.spent (good : k.Good) (ticket : k.transfers id = some t) :
    id ≤ k.transferNext := by
  by_contra beyond
  rw [good.transferFresh id (by omega)] at ticket
  cases ticket

theorem step_kept (good : k.Good) (ticket : k.transfers id = some t)
    (ran : step k a = some (k', reply)) (after : k'.transfers id = some t') : t.Kept t' := by
  obtain ⟨before, found, origin⟩ := ticket_origin ran (good.spent ticket) after
  rw [ticket] at found
  cases found
  rcases origin with rfl | ⟨s', change⟩ | ⟨poisoned, rfl⟩
  · exact .refl _
  · exact change.kept (good.formed id t ticket)
  · exact ⟨⟨rfl, rfl, rfl⟩, fun attempted ended => ⟨attempted, ended, rfl, rfl, rfl⟩,
      fun settled => ⟨settled, rfl⟩⟩

theorem step_spent (spent : id ≤ k.transferNext) (gone : k.transfers id = none)
    (ran : step k a = some (k', reply)) : k'.transfers id = none := by
  cases after : k'.transfers id with
  | none => rfl
  | some t' =>
    obtain ⟨t, found, -⟩ := ticket_origin ran spent after
    rw [gone] at found
    cases found

theorem later_spent (spent : id ≤ k.transferNext) (gone : k.transfers id = none)
    (run : Reach Step k k') : k'.transfers id = none := by
  have keeps : ∀ before label after, id ≤ before.transferNext ∧ before.transfers id = none →
      Step before label after → id ≤ after.transferNext ∧ after.transfers id = none := by
    rintro before label after ⟨spent, gone⟩ next
    obtain ⟨reply, ran⟩ := Step.ran next
    have later := step_next_le ran
    exact ⟨by omega, step_spent spent gone ran⟩
  exact (run.invariant keeps ⟨spent, gone⟩).2

theorem later_kept (good : k.Good) (ticket : k.transfers id = some t)
    (run : Reach Step k k') (after : k'.transfers id = some t') : t.Kept t' := by
  -- The ticket is kept so far, or gone for good.
  have keeps : ∀ before label after,
      before.Good ∧ id ≤ before.transferNext ∧ (∀ s, before.transfers id = some s → t.Kept s) →
      Step before label after →
      after.Good ∧ id ≤ after.transferNext ∧ (∀ s, after.transfers id = some s → t.Kept s) := by
    rintro before label after ⟨good, spent, kept⟩ next
    obtain ⟨reply, ran⟩ := Step.ran next
    have later := step_next_le ran
    refine ⟨good.step ran, by omega, fun s found => ?_⟩
    obtain ⟨s', existed, -⟩ := ticket_origin ran spent found
    exact (kept s' existed).trans (step_kept good existed ran found)
  have start : ∀ s, k.transfers id = some s → t.Kept s := by
    intro s found
    rw [ticket] at found
    cases found
    exact .refl t
  exact (run.invariant keeps ⟨good, good.spent ticket, start⟩).2.2 t' after

/-! ## At most once -/

/-- A counter of each ticket has counted at most once, and then the ticket is marked as done. -/
def Kernel.Once (k : Kernel) (count : Nat → Nat) (done : Transfer → Bool) : Prop :=
  ∀ id, count id ≤ 1 ∧ (count id = 1 → id ≤ k.transferNext ∧
    ∀ t, k.transfers id = some t → done t = true)

theorem Kernel.Once.step {count count' : Nat → Nat} {done : Transfer → Bool} (good : k.Good)
    (once : k.Once count done) (ran : step k a = some (k', reply))
    (stays : ∀ id t t' s', k.transfers id = some t → Change k id t a t' s' → done t = true →
      done t' = true) (ignores : ∀ t poisoned, done { t with poisoned := poisoned } = done t)
    (counts : count' = count ∨ ∃ id t t', k.transfers id = some t ∧ done t = false ∧
      k'.transfers id = some t' ∧ done t' = true ∧
      count' = update count id (count id + 1)) : k'.Once count' done := by
  have later := step_next_le ran
  have same (id : Nat) (counted : count id = 1) : id ≤ k'.transferNext ∧
      ∀ t', k'.transfers id = some t' → done t' = true := by
    obtain ⟨spent, marked⟩ := (once id).2 counted
    refine ⟨by omega, fun t' after => ?_⟩
    obtain ⟨t, found, rfl | ⟨s', change⟩ | ⟨poisoned, rfl⟩⟩ := ticket_origin ran spent after
    · exact marked _ found
    · exact stays id t t' s' found change (marked t found)
    · rw [ignores]
      exact marked t found
  intro other
  rcases counts with kept | ⟨id, t, t', found, fresh, after, marked, bumped⟩
  · rw [kept]
    exact ⟨(once other).1, same other⟩
  · by_cases here : other = id
    · subst here
      have unmarked : count other = 0 := by
        have bound := (once other).1
        by_contra counted
        have one : count other = 1 := by omega
        rw [((once other).2 one).2 t found] at fresh
        cases fresh
      rw [bumped, update_self, unmarked]
      refine ⟨Nat.le_refl _, fun _ => ⟨?_, fun t'' found' => ?_⟩⟩
      · exact Nat.le_trans (good.spent found) later
      · rw [after] at found'
        cases found'
        exact marked
    · rw [bumped, update_of_ne here]
      exact ⟨(once other).1, same other⟩

def Transfer.started (t : Transfer) : Bool := t.attempted && t.pc != .guarding

theorem captureEnter_left (s : PageState) (id : Nat) (vma : Option Vma) (held : Bool)
    (copy : Copy) : (captureEnter s id vma held copy).1 ≠ .guarding := by
  simp only [captureEnter]
  repeat' split
  all_goals simp

theorem step_runs (ran : Custody.step k a = some (k', reply)) (good : k.Good) :
    k'.runs = k.runs ∨ ∃ id t t', k.transfers id = some t ∧ t.started = false ∧
      k'.transfers id = some t' ∧ t'.started = true ∧
      k'.runs = update k.runs id (k.runs id + 1) := by
  obtain ⟨-, -, -, -, -, ⟨id, nomem, guards⟩ | same, -⟩ := step_frame ran
  · subst guards
    simp only [Custody.step, captureGuard] at ran
    split at ran
    · cases ran
    next t ticket =>
    split at ran
    · cases ran
    next guarding =>
    rw [ne_eq, not_not] at guarding
    have attempted := ((good.formed id t ticket).running (by rw [guarding]; rfl)).1
    (repeat' split at ran) <;> cases ran
    all_goals try exact .inl rfl
    refine .inr ⟨id, t, _, ticket, by simp [Transfer.started, guarding],
      update_self .., ?_, rfl⟩
    simp [Transfer.started, attempted]
  · exact .inl same

theorem step_ackWrites (ran : Custody.step k a = some (k', reply)) :
    k'.ackWrites = k.ackWrites ∨ ∃ id t t', k.transfers id = some t ∧ t.acknowledged = false ∧
      k'.transfers id = some t' ∧ t'.acknowledged = true ∧
      k'.ackWrites = update k.ackWrites id (k.ackWrites id + 1) := by
  obtain ⟨-, -, -, -, -, -, ⟨who, id, mmIdentity, idx, cancel, copied, acks⟩ | same⟩ :=
    step_frame ran
  · subst acks
    obtain ⟨rfl, -⟩ | ⟨t, ticket, -, -, -, ran⟩ := withTransfer_cases ran
    · exact .inl rfl
    simp only at ran
    split at ran
    · (repeat' split at ran) <;> cases ran <;> exact .inl rfl
    next unsettled =>
    rw [Bool.not_eq_true] at unsettled
    (repeat' split at ran) <;> cases ran
    all_goals try exact .inl rfl
    exact .inr ⟨id, t, _, ticket, unsettled, update_self .., rfl, rfl⟩
  · exact .inl same

theorem Reached.runs_once (reached : Reached k) : k.Once k.runs Transfer.started := by
  apply reached.invariant
  · intro before a after reply reached once ran
    refine Kernel.Once.step reached.good once ran ?_ ?_ (step_runs ran reached.good)
    · intro id t t' s' found change started
      cases change with
      | reads => simp_all [Transfer.started, captureEnter_left]
      | _ => simp_all [Transfer.started]
    · intro t poisoned
      rfl
  · intro memory pins traceId monTgid tgid id
    exact ⟨Nat.zero_le _, fun counted => by cases counted⟩

theorem Reached.acks_once (reached : Reached k) : k.Once k.ackWrites Transfer.acknowledged := by
  apply reached.invariant
  · intro before a after reply reached once ran
    refine Kernel.Once.step reached.good once ran ?_ ?_ (step_ackWrites ran)
    · intro id t t' s' found change settled
      exact ((change.kept (reached.good.formed id t found)).settled settled).1
    · intro t poisoned
      rfl
  · intro memory pins traceId monTgid tgid id
    exact ⟨Nat.zero_le _, fun counted => by cases counted⟩

/-! ## The contract -/

def Act.control : Act → Option (Nat × Nat)
  | .transferCapture who id _ _ _ => some (who, id)
  | .transferRead who id _ _ _ => some (who, id)
  | .transferAck who id _ _ _ _ => some (who, id)
  | .transferForget who id _ _ => some (who, id)
  | _ => none

structure Kernel.Waits (k : Kernel) (id : Nat) (t : Transfer) : Prop where
  ticket : k.transfers id = some t
  listed : id ∈ k.transferListed
  idle : t.pc = .idle

def Transfer.report (t : Transfer) (copied : Bool) : Reply :=
  match t.captureResult with
  | some errno => .failed errno
  | none => serve t none copied

def Transfer.settlement (t : Transfer) (copied : Bool) : Reply :=
  match t.ackResult with
  | some errno => .failed errno
  | none => serve t none copied

def Kernel.Abandons (k : Kernel) (who mm : Nat) : Prop :=
  ∃ id t, id ∈ k.transferListed ∧ k.transfers id = some t ∧ t.owner = who ∧ t.page.mm = mm ∧
    t.grants = true ∧ t.acknowledged = false ∧ (k.pages t.page).cancelled (.transfer id) = false

/-- The contract of transfer tickets in one state, for every section that may run there and every
run from there. -/
structure Kernel.TransferContract (k : Kernel) : Prop where
  /-- Tickets are numbered in order, by numbers never used before. -/
  numbered : ∀ a k' reply id, step k a = some (k', reply) → k.transfers id = none →
    k'.transfers id ≠ none → id = k.transferNext + 1 ∧ k'.transferNext = id
  /-- A ticket that is freed stays so. -/
  spent : ∀ id k', id ≤ k.transferNext → k.transfers id = none → Reach Step k k' →
    k'.transfers id = none
  /-- A control of another thread finds no ticket. -/
  foreign : ∀ a who id t, a.control = some (who, id) → k.transfers id = some t → t.owner ≠ who →
    step k a = some (k, .failed .ENOENT)
  /-- A listed waiting ticket changes only by a control or the exit of its owner. -/
  owned : ∀ a k' reply id t, step k a = some (k', reply) → k.Waits id t →
    k'.transfers id ≠ some t → a.control = some (t.owner, id) ∨ a = .transferOwnerExit t.owner
  /-- A ticket is captured once. -/
  capturedOnce : ∀ id, k.runs id ≤ 1
  /-- The outcome of a capture and of a settlement never changes again. -/
  kept : ∀ id t k' t', k.transfers id = some t → Reach Step k k' →
    k'.transfers id = some t' → t.Kept t'
  /-- A capture reports the outcome that it recorded. -/
  reported : ∀ id copied k' reply, step k (.captureFinish id copied) = some (k', reply) →
    ∃ t', k'.transfers id = some t' ∧ t'.attempted = true ∧ t'.pc.running = false ∧
      reply = t'.report copied
  /-- A replayed `CAPTURE` of an unsettled, uncancelled ticket reports that outcome and changes
  nothing. -/
  replayed : ∀ id t copied, k.Waits id t → t.attempted = true → t.acknowledged = false →
    (k.pages t.page).cancelled (.transfer id) = false →
    step k (.transferCapture t.owner id t.mmIdentity t.page.idx copied) =
      some (k, t.report copied)
  /-- `READ` serves what a successful capture took. -/
  read : ∀ id copied k' result bytes,
    step k (.transferReadEnd id copied) = some (k', .served result bytes) →
    ∃ t, k.transfers id = some t ∧ t.attempted = true ∧ t.pc.running = false ∧
      t.captureResult = none ∧ result = t.result ∧
      bytes = if carries t.result then some t.bytes else none
  /-- A ticket hands its page over once. -/
  ackedOnce : ∀ id, k.ackWrites id ≤ 1
  /-- `ACK` changes only the record of a captured, offered, granting, unsettled and uncancelled
  ticket of its caller, from `TRANSIT` to `REMOTE`, and counts it. -/
  acked : ∀ who id mmIdentity idx cancel copied k' reply p,
    step k (.transferAck who id mmIdentity idx cancel copied) = some (k', reply) →
    k'.pages p ≠ k.pages p →
    ∃ t, k.transfers id = some t ∧ t.owner = who ∧ t.page = p ∧ cancel = false ∧
      t.grants = true ∧ t.offered = true ∧ t.acknowledged = false ∧
      (k.pages p).cancelled (.transfer id) = false ∧ (k.pages p).record.state = .transit ∧
      (k'.pages p).record = ⟨.remote, 0, (k.pages p).record.gen⟩ ∧
      k'.ackWrites id = k.ackWrites id + 1
  /-- The last section of an `ACK` records and reports the settlement. -/
  settled : ∀ id t copied k' reply, k.transfers id = some t → t.pc = .dropping false →
    step k (.transferDrop id copied) = some (k', reply) →
    ∃ t', k'.transfers id = some t' ∧ t'.acknowledged = true ∧ reply = t'.settlement copied
  /-- A repeated `ACK` reports it, and changes nothing. -/
  reacked : ∀ id t copied, k.Waits id t → t.acknowledged = true →
    step k (.transferAck t.owner id t.mmIdentity t.page.idx false copied) =
      some (k, t.settlement copied)
  /-- A grant that is not acknowledged cannot be cancelled. -/
  busy : ∀ id t copied, k.Waits id t → t.grants = true → t.acknowledged = false →
    (k.pages t.page).cancelled (.transfer id) = false →
    step k (.transferAck t.owner id t.mmIdentity t.page.idx true copied) =
      some (k, .failed .EBUSY)
  /-- `FORGET` frees a settled ticket of its caller, and changes nothing otherwise. -/
  forgotten : ∀ who id mmIdentity idx k' reply,
    step k (.transferForget who id mmIdentity idx) = some (k', reply) →
    (∃ t, k.transfers id = some t ∧ t.owner = who ∧ t.acknowledged = true ∧ reply = .ok ∧
      k'.transfers id = none) ∨ (k' = k ∧ ∃ errno, reply = .failed errno)
  /-- The exit of a thread poisons exactly the address spaces where it abandons a grant. -/
  poisoned : ∀ who k' reply mm, step k (.transferOwnerExit who) = some (k', reply) →
    (k.Abandons who mm → k'.accessError mm = some .ENOTRECOVERABLE) ∧
    (¬ k.Abandons who mm → k'.accessError mm = k.accessError mm)
  /-- The count of tickets is that of the listed ones, each listed once. -/
  counted : k.transferLive = k.transferListed.length ∧ k.transferListed.Nodup ∧
    ∀ id, id ∈ k.transferListed → ∃ t, k.transfers id = some t

theorem Kernel.Waits.found (waits : k.Waits id t) (control : Transfer → Result) :
    k.withTransfer t.owner id t.mmIdentity t.page.idx control = control t := by
  simp [withTransfer, transferFind, waits.ticket, waits.listed, waits.idle]

variable {idx mmIdentity who : Nat} {copied : Bool}

theorem withTransfer_foreign (control : Transfer → Result) (ticket : k.transfers id = some t)
    (other : t.owner ≠ who) :
    k.withTransfer who id mmIdentity idx control = some (k, .failed .ENOENT) := by
  simp [withTransfer, transferFind, ticket, other]

theorem step_numbered (ran : step k a = some (k', reply)) (free : k.transfers id = none)
    (used : k'.transfers id ≠ none) : id = k.transferNext + 1 ∧ k'.transferNext = id := by
  cases step_tickets ran with
  | untouched _ transfers =>
    rw [transfers] at used
    exact absurd free used
  | begun _ _ transfers _ next =>
    rw [transfers, update_apply] at used
    split at used
    · next own => exact ⟨own, by omega⟩
    · exact absurd free used
  | changed found _ _ transfers =>
    rw [transfers, update_apply] at used
    split at used
    · next own =>
      rw [← own, free] at found
      cases found
    · exact absurd free used
  | freed _ _ _ transfers | disposed _ _ _ transfers =>
    rw [transfers, update_apply] at used
    split at used
    · exact absurd rfl used
    · exact absurd free used
  | exited _ exits =>
    cases after : k'.transfers id with
    | none => exact absurd after used
    | some t' =>
      obtain ⟨t, poisoned, found, -⟩ := exit_tickets exits after
      rw [free] at found
      cases found

theorem exit_other (ran : k.transferOwnerExit who = some (k', reply))
    (ticket : k.transfers id = some t) (other : t.owner ≠ who) : k'.transfers id = some t := by
  simp only [transferOwnerExit] at ran
  split at ran <;> cases ran
  simp [ticket, ownedBy, other]

theorem step_owned (good : k.Good) (ran : step k a = some (k', reply)) (waits : k.Waits id t)
    (changed : k'.transfers id ≠ some t) :
    a.control = some (t.owner, id) ∨ a = .transferOwnerExit t.owner := by
  have ticket := waits.ticket
  have idle := waits.idle
  cases step_tickets ran with
  | untouched _ transfers =>
    rw [transfers] at changed
    exact absurd ticket changed
  | begun _ _ transfers =>
    rw [transfers, update_apply] at changed
    split at changed
    · next fresh =>
      rw [fresh, good.transferFresh _ (Nat.lt_succ_self _)] at ticket
      cases ticket
    · exact absurd ticket changed
  | changed found change _ transfers =>
    rw [transfers, update_apply] at changed
    split at changed
    · next own =>
      subst own
      rw [ticket] at found
      cases found
      left
      cases change <;> first | rfl | simp_all
    · exact absurd ticket changed
  | freed found spent _ transfers =>
    rw [transfers, update_apply] at changed
    split at changed
    · next own =>
      subst own
      rw [ticket] at found
      cases found
      rcases spent with replying | ⟨-, -, -, mmIdentity, idx, forgets⟩
      · rw [idle] at replying
        cases replying
      · rw [forgets]
        exact .inl rfl
    · exact absurd ticket changed
  | disposed found unlisted _ transfers =>
    rw [transfers, update_apply] at changed
    split at changed
    · next own =>
      subst own
      exact absurd waits.listed unlisted
    · exact absurd ticket changed
  | @exited who exits left =>
    by_cases mine : t.owner = who
    · rw [exits, mine]
      exact .inr rfl
    · exact absurd (exit_other left ticket mine) changed

theorem captureFinish_reports (good : k.Good)
    (ran : step k (.captureFinish id copied) = some (k', reply)) :
    ∃ t', k'.transfers id = some t' ∧ t'.attempted = true ∧ t'.pc.running = false ∧
      reply = t'.report copied := by
  simp only [step, captureFinish] at ran
  split at ran
  · cases ran
  next t ticket =>
  split at ran <;> cases ran
  next error sv at_ =>
  have attempted := ((good.formed id t ticket).running (by rw [at_]; rfl)).1
  exact ⟨_, update_self .., attempted, rfl, rfl⟩

theorem transferReadEnd_served {result : Served} {bytes : Option PageBytes} (good : k.Good)
    (ran : step k (.transferReadEnd id copied) = some (k', .served result bytes)) :
    ∃ t, k.transfers id = some t ∧ t.attempted = true ∧ t.pc.running = false ∧
      t.captureResult = none ∧ result = t.result ∧
      bytes = if carries t.result then some t.bytes else none := by
  simp only [step, transferReadEnd] at ran
  split at ran
  · cases ran
  next t ticket =>
  split at ran
  case h_2 => cases ran
  next read at_ =>
  obtain ⟨attempted, -, -, captured⟩ := (good.formed id t ticket).reading read at_
  split at ran
  · cases ran
  split at ran
  · cases ran
  unfold serve at ran
  split at ran <;> cases ran
  exact ⟨t, ticket, attempted, by rw [at_]; rfl, captured, rfl, rfl⟩

theorem transferAck_writes {cancel : Bool} {p : Page}
    (ran : step k (.transferAck who id mmIdentity idx cancel copied) = some (k', reply))
    (changed : k'.pages p ≠ k.pages p) :
    ∃ t, k.transfers id = some t ∧ t.owner = who ∧ t.page = p ∧ cancel = false ∧
      t.grants = true ∧ t.offered = true ∧ t.acknowledged = false ∧
      (k.pages p).cancelled (.transfer id) = false ∧ (k.pages p).record.state = .transit ∧
      (k'.pages p).record = ⟨.remote, 0, (k.pages p).record.gen⟩ ∧
      k'.ackWrites id = k.ackWrites id + 1 := by
  obtain ⟨rfl, -⟩ | ⟨t, ticket, -, mine, -, ran⟩ := withTransfer_cases ran
  · exact absurd rfl changed
  simp only at ran
  split at ran
  · (repeat' split at ran) <;> cases ran <;> exact absurd rfl changed
  next unsettled =>
  split at ran
  · cases ran
    exact absurd rfl changed
  split at ran
  · cases ran
    exact absurd rfl changed
  next ready =>
  split at ran
  · cases ran
    exact absurd rfl changed
  next live =>
  split at ran
  next acks =>
    obtain ⟨rfl, grants⟩ := acks
    split at ran
    · cases ran
      exact absurd rfl changed
    next handed =>
    cases ran
    rw [ne_eq, not_not] at handed
    simp only [true_and, not_or, Bool.not_eq_false] at ready
    have here : p = t.page := by
      by_contra apart
      exact changed (update_of_ne apart ..)
    subst here
    refine ⟨t, ticket, mine, rfl, rfl, grants, ready.2.2, by simpa using unsettled,
      by simpa using live, handed, ?_, update_self ..⟩
    simp [PageState.write]
  · cases ran
    exact absurd rfl changed

theorem transferForget_spec
    (ran : step k (.transferForget who id mmIdentity idx) = some (k', reply)) :
    (∃ t, k.transfers id = some t ∧ t.owner = who ∧ t.acknowledged = true ∧ reply = .ok ∧
      k'.transfers id = none) ∨ (k' = k ∧ ∃ errno, reply = .failed errno) := by
  obtain ⟨same, missing⟩ | ⟨t, ticket, -, mine, -, ran⟩ := withTransfer_cases ran
  · right
    rcases missing with failed | failed
    · exact ⟨same, _, failed⟩
    · exact ⟨same, _, failed⟩
  split at ran
  · cases ran
    exact .inr ⟨rfl, _, rfl⟩
  next settled =>
  cases ran
  rw [Bool.not_eq_false] at settled
  refine .inl ⟨t, ticket, mine, settled, rfl, ?_⟩
  rw [(free_transfers _ _ _).2.1, update_self]

theorem exit_poisons {mm : Nat} (ran : step k (.transferOwnerExit who) = some (k', reply)) :
    (k.Abandons who mm → k'.accessError mm = some .ENOTRECOVERABLE) ∧
      (¬ k.Abandons who mm → k'.accessError mm = k.accessError mm) := by
  have abandons : k.transferListed.any (k.abandonsIn who mm) = true ↔ k.Abandons who mm := by
    rw [List.any_eq_true]
    constructor
    · rintro ⟨id, listed, leaves⟩
      unfold abandonsIn at leaves
      split at leaves
      · cases leaves
      next t ticket =>
      simp only [abandoned, Bool.and_eq_true, beq_iff_eq, Bool.not_eq_true'] at leaves
      exact ⟨id, t, listed, ticket, leaves.1.1, leaves.1.2, leaves.2.1.1, leaves.2.1.2,
        leaves.2.2⟩
    · rintro ⟨id, t, listed, ticket, mine, here, grants, unsettled, live⟩
      exact ⟨id, listed, by simp [abandonsIn, abandoned, ticket, mine, here, grants, unsettled,
        live]⟩
  simp only [step, transferOwnerExit] at ran
  split at ran <;> cases ran
  constructor
  · intro leaves
    simp [abandons.mpr leaves]
  · intro none_left
    have clean : ¬ k.transferListed.any (k.abandonsIn who mm) = true :=
      fun leaves => none_left (abandons.mp leaves)
    exact if_neg clean

/-- In every state that the kernel reaches, a transfer ticket hands its page over at most once. -/
theorem transfer_tickets_once (reached : Reached k) : k.TransferContract := by
  have good := reached.good
  constructor
  case numbered => exact fun a k' reply id ran free used => step_numbered ran free used
  case spent => exact fun id k' spent gone run => later_spent spent gone run
  case foreign =>
    intro a who id t names ticket other
    cases a with
    | transferCapture | transferRead | transferAck | transferForget =>
      cases names
      exact withTransfer_foreign _ ticket other
    | _ => cases names
  case owned => exact fun a k' reply id t ran waits changed => step_owned good ran waits changed
  case capturedOnce => exact fun id => (reached.runs_once id).1
  case kept => exact fun id t k' t' ticket run after => later_kept good ticket run after
  case reported => exact fun id copied k' reply ran => captureFinish_reports good ran
  case replayed =>
    intro id t copied waits attempted unsettled live
    refine (waits.found _).trans ?_
    cases outcome : t.captureResult <;>
      simp [attempted, unsettled, live, outcome, Transfer.report]
  case read => exact fun id copied k' result bytes ran => transferReadEnd_served good ran
  case ackedOnce => exact fun id => (reached.acks_once id).1
  case acked =>
    exact fun who id mmIdentity idx cancel copied k' reply p ran changed =>
      transferAck_writes ran changed
  case settled =>
    intro id t copied k' reply ticket at_ ran
    have acknowledged := (good.formed id t ticket).dropping false at_
    simp only [step, transferDrop, ticket, at_] at ran
    cases ran
    refine ⟨_, update_self .., acknowledged, ?_⟩
    cases t.ackResult <;> simp [Transfer.settlement]
  case reacked =>
    intro id t copied waits settled
    refine (waits.found _).trans ?_
    cases outcome : t.ackResult <;> simp [settled, outcome, Transfer.settlement]
  case busy =>
    intro id t copied waits grants unsettled live
    refine (waits.found _).trans ?_
    simp [grants, unsettled, live]
  case forgotten => exact fun who id mmIdentity idx k' reply ran => transferForget_spec ran
  case poisoned => exact fun who k' reply mm ran => exit_poisons ran
  case counted => exact ⟨good.counted, good.listedOnce, good.listed⟩

/-- The contract at a kernel with a ticket whose page was taken, read and acknowledged, and whose
`CAPTURE` and `ACK` were repeated. -/
theorem transfer_tickets_once_acknowledged :
    ∃ k, Reached k ∧ k.transferListed = [1] ∧ k.runs 1 = 1 ∧ k.ackWrites 1 = 1 ∧
      (k.pages ⟨0, 5⟩).record.state = .remote ∧ k.TransferContract := by
  have ran : (exec next Kernel.boot
      [.transferBegin 1 ⟨0, 5⟩ 7, .transferReply 1 true, .transferCapture 1 1 7 5 true,
        .captureGuard 1 false,
        .captureRead 1 (some ⟨false, false, false, true, false⟩) false .absent,
        .captureMark 1 false, .captureTake 1 (.page zeroPage 9), .captureFinish 1 true,
        .transferCapture 1 1 7 5 true, .transferRead 1 1 7 5 true, .transferReadEnd 1 true,
        .transferAck 1 1 7 5 false true, .transferDrop 1 true, .transferAck 1 1 7 5 false true]).any
        (fun k => decide (k.transferListed = [1] ∧ k.runs 1 = 1 ∧ k.ackWrites 1 = 1 ∧
          (k.pages ⟨0, 5⟩).record.state = .remote)) = true := by decide +kernel
  obtain ⟨k, reached, found⟩ := Reached.exhibits ran
  obtain ⟨listed, captured, acked, lent⟩ := of_decide_eq_true found
  exact ⟨k, reached, listed, captured, acked, lent, transfer_tickets_once reached⟩

end Vmctx.Custody
