import Vmctx.Custody.Reservations
/-!
# What each section does to transfer tickets

A section leaves every transfer ticket alone, begins one, changes one as `Change` lists, frees one
that no longer needs listing, or unlists all tickets of an exiting thread. `Good` is kept by every
section, so all of this holds along every run.
-/

namespace Vmctx.Custody

open Kernel Function

variable {k k' : Kernel} {reply : Reply}

inductive Change (k : Kernel) (id : Nat) (t : Transfer) : Act → Transfer → PageState → Prop
  | replied {copied : Bool} (at_ : t.pc = .replying) :
      Change k id t (.transferReply id copied) { t with pc := .idle } (k.pages t.page)
  | attempts {mmIdentity idx : Nat} {copied : Bool} (waiting : t.pc = .idle)
      (listed : id ∈ k.transferListed) (unsettled : t.acknowledged = false)
      (first : t.attempted = false) :
      Change k id t (.transferCapture t.owner id mmIdentity idx copied)
        { t with attempted := true, pc := .guarding } (k.pages t.page)
  | guardFails {nomem : Bool} {errno : Errno} (at_ : t.pc = .guarding) :
      Change k id t (.captureGuard id nomem) { t with pc := .captured (some errno) t.result }
        (k.pages t.page)
  | guards {nomem : Bool} (at_ : t.pc = .guarding) (unreserved : (k.pages t.page).entry = none)
      (settled : (k.pages t.page).record.inFlight = false) :
      Change k id t (.captureGuard id nomem) { t with guarded := true, pc := .entering }
        ((k.pages t.page).reserve (.transfer id))
  | reads {vma : Option Vma} {held : Bool} {copy : Copy} (at_ : t.pc = .entering) :
      Change k id t (.captureRead id vma held copy)
        { t with
          pc := (captureEnter (k.pages t.page) id vma held copy).1
          bytes := (captureEnter (k.pages t.page) id vma held copy).2.getD t.bytes }
        (k.pages t.page)
  | shareFails {nomem : Bool} {record : PgRec} {sv : Served} {errno : Errno}
      (at_ : t.pc = .sharing record sv) :
      Change k id t (.captureClaim id nomem) { t with pc := .captured (some errno) sv }
        (k.pages t.page)
  | shareClaims {nomem : Bool} {record : PgRec} {sv : Served} (at_ : t.pc = .sharing record sv)
      (live : (k.pages t.page).cancelled (.transfer id) = false)
      (read : (k.pages t.page).record = record) :
      Change k id t (.captureClaim id nomem)
        { t with pc := .copying record ⟨.claim, 0, record.gen⟩ sv }
        ((k.pages t.page).write ⟨.claim, 0, record.gen⟩ (.transfer id))
  | shareLoses {copy : Copy} {record claim : PgRec} {sv : Served} {errno : Errno}
      (at_ : t.pc = .copying record claim sv)
      (lost : (k.pages t.page).cancelled (.transfer id) = true ∨
        (k.pages t.page).record ≠ claim) :
      Change k id t (.captureShared id copy)
        { t with pc := .captured (some errno) sv, bytes := copy.bytes t.bytes } (k.pages t.page)
  | shareRestores {copy : Copy} {record claim : PgRec} {sv : Served} {errno : Errno}
      (at_ : t.pc = .copying record claim sv)
      (live : (k.pages t.page).cancelled (.transfer id) = false)
      (standing : (k.pages t.page).record = claim) :
      Change k id t (.captureShared id copy)
        { t with pc := .captured (some errno) sv, bytes := copy.bytes t.bytes }
        ((k.pages t.page).write record (.transfer id))
  | shareWins {bytes : PageBytes} {sum : UInt16} {record claim : PgRec} {sv : Served}
      (at_ : t.pc = .copying record claim sv)
      (live : (k.pages t.page).cancelled (.transfer id) = false)
      (standing : (k.pages t.page).record = claim) :
      Change k id t (.captureShared id (.page bytes sum))
        { t with
          pc := .captured none
            { sv with status := some .copied, grant := true, present := true, sum := sum }
          bytes := bytes }
        ((k.pages t.page).write ⟨.transit, sum, record.gen⟩ (.transfer id))
  | markMoved {nomem : Bool} {sv : Served} (at_ : t.pc = .marking sv) :
      Change k id t (.captureMark id nomem)
        { t with pc := .captured none { sv with status := some .claiming } } (k.pages t.page)
  | markFails {nomem : Bool} {sv : Served} (at_ : t.pc = .marking sv) :
      Change k id t (.captureMark id nomem) { t with pc := .captured (some .EBUSY) sv }
        (k.pages t.page)
  | marks {nomem : Bool} {sv : Served} (at_ : t.pc = .marking sv)
      (here : (k.pages t.page).record.state = .home ∨ (k.pages t.page).record.state = .none) :
      Change k id t (.captureMark id nomem)
        { t with pc := .taking (k.pages t.page).record.state sv }
        ((k.pages t.page).write ⟨.transit, 0, (k.pages t.page).record.gen⟩ (.transfer id))
  | takeLost {copy : Copy} {state : PgState} {sv : Served} (at_ : t.pc = .taking state sv)
      (gone : ¬ ((k.pages t.page).record.state = .transit ∧ (k.pages t.page).record.sum = 0)) :
      Change k id t (.captureTake id copy)
        { t with
          pc := .captured (captureOutcome state sv copy (k.pages t.page).record.gen).2.1
            (captureOutcome state sv copy (k.pages t.page).record.gen).2.2
          bytes := copy.bytes t.bytes }
        { k.pages t.page with frame := copy.frame (k.pages t.page).frame }
  | takes {copy : Copy} {state : PgState} {sv : Served} (at_ : t.pc = .taking state sv)
      (standing : (k.pages t.page).record.state = .transit ∧ (k.pages t.page).record.sum = 0) :
      Change k id t (.captureTake id copy)
        { t with
          pc := .captured (captureOutcome state sv copy (k.pages t.page).record.gen).2.1
            (captureOutcome state sv copy (k.pages t.page).record.gen).2.2
          bytes := copy.bytes t.bytes }
        { (k.pages t.page).write (captureOutcome state sv copy (k.pages t.page).record.gen).1
            (.transfer id) with frame := copy.frame (k.pages t.page).frame }
  | finishes {copied : Bool} {error : Option Errno} {sv : Served}
      (at_ : t.pc = .captured error sv) :
      Change k id t (.captureFinish id copied)
        { t with
          captureResult := if (k.pages t.page).cancelled (.transfer id) then some .ESTALE else error
          result := if error = none then sv else t.result
          pc := .idle } (k.pages t.page)
  | offers {mmIdentity idx : Nat} {copied read : Bool} (waiting : t.pc = .idle)
      (listed : id ∈ k.transferListed) (unsettled : t.acknowledged = false)
      (captured : t.attempted = true ∧ t.captureResult = none) :
      Change k id t (.transferRead t.owner id mmIdentity idx copied)
        { t with offered := true, pc := .reading read } (k.pages t.page)
  | readEnds {copied read : Bool} (at_ : t.pc = .reading read) :
      Change k id t (.transferReadEnd id copied) { t with pc := .idle } (k.pages t.page)
  | settles {mmIdentity idx : Nat} {cancel copied : Bool} {error : Option Errno}
      (waiting : t.pc = .idle) (listed : id ∈ k.transferListed)
      (unsettled : t.acknowledged = false)
      (nothing : (k.pages t.page).cancelled (.transfer id) = true ∨ t.grants = false) :
      Change k id t (.transferAck t.owner id mmIdentity idx cancel copied)
        { t with acknowledged := true, ackResult := error, pc := .dropping cancel }
        (k.pages t.page)
  | acks {mmIdentity idx : Nat} {copied : Bool} (waiting : t.pc = .idle)
      (listed : id ∈ k.transferListed) (unsettled : t.acknowledged = false)
      (offered : t.offered = true) (grants : t.grants = true)
      (live : (k.pages t.page).cancelled (.transfer id) = false)
      (handed : (k.pages t.page).record.state = .transit) :
      Change k id t (.transferAck t.owner id mmIdentity idx false copied)
        { t with acknowledged := true, ackResult := none, pc := .dropping false }
        ((k.pages t.page).write ⟨.remote, 0, (k.pages t.page).record.gen⟩ (.transfer id))
  | drops {copied cancel : Bool} {s' : PageState} (at_ : t.pc = .dropping cancel)
      (page : s' = if t.guarded then (k.pages t.page).release else k.pages t.page) :
      Change k id t (.transferDrop id copied) { t with guarded := false, pc := .idle } s'

def Transfer.begun (who : Nat) (p : Page) (mmIdentity : Nat) : Transfer :=
  ⟨p, mmIdentity, who, false, false, false, false, none, none, .empty, zeroPage, false, .replying⟩

inductive TransferMove (k : Kernel) (a : Act) (k' : Kernel) : Prop
  | untouched (idle : a.ofTransfer = false ∨ k' = k) (transfers : k'.transfers = k.transfers)
      (listed : k'.transferListed = k.transferListed) (next : k'.transferNext = k.transferNext)
      (live : k'.transferLive = k.transferLive)
  | begun {who mmIdentity : Nat} {p : Page} (begins : a = .transferBegin who p mmIdentity)
      (pages : k'.pages = k.pages)
      (transfers : k'.transfers = update k.transfers (k.transferNext + 1)
        (some (.begun who p mmIdentity)))
      (listed : k'.transferListed = (k.transferNext + 1) :: k.transferListed)
      (next : k'.transferNext = k.transferNext + 1)
      (live : k'.transferLive = k.transferLive + 1)
  | changed {id : Nat} {t t' : Transfer} (ticket : k.transfers id = some t)
      {s' : PageState} (change : Change k id t a t' s')
      (pages : k'.pages = update k.pages t.page s')
      (transfers : k'.transfers = update k.transfers id (some t'))
      (listed : k'.transferListed = k.transferListed) (next : k'.transferNext = k.transferNext)
      (live : k'.transferLive = k.transferLive)
  | freed {id : Nat} {t : Transfer} (ticket : k.transfers id = some t)
      (spent : t.pc = .replying ∨
        (t.pc = .idle ∧ t.acknowledged = true ∧ id ∈ k.transferListed ∧
          ∃ mmIdentity idx, a = .transferForget t.owner id mmIdentity idx))
      (pages : k'.pages = if t.guarded then
        update k.pages t.page (k.pages t.page).release else k.pages)
      (transfers : k'.transfers = update k.transfers id none)
      (listed : k'.transferListed = k.transferListed.erase id)
      (next : k'.transferNext = k.transferNext)
      (live : k'.transferLive = k.transferLive - 1)
  | disposed {id : Nat} {t : Transfer} (ticket : k.transfers id = some t)
      (unlisted : id ∉ k.transferListed)
      (pages : k'.pages = if t.guarded then
        update k.pages t.page (k.pages t.page).release else k.pages)
      (transfers : k'.transfers = update k.transfers id none)
      (listed : k'.transferListed = k.transferListed)
      (next : k'.transferNext = k.transferNext)
      (live : k'.transferLive = k.transferLive)
  | exited {who : Nat} (exits : a = .transferOwnerExit who)
      (ran : k.transferOwnerExit who = some (k', .ok))

variable {a : Act} {id idx mmIdentity who : Nat} {t : Transfer} {copied nomem : Bool} {copy : Copy}

/-- A section leaves alone the faults, recall tickets, local operations and transfer tickets that
are not its own, and few touch the sticky errors and the counts of captures and settlements. -/
theorem step_frame (ran : step k a = some (k', reply)) :
    (a.ofFault = true ∨ (k'.faults = k.faults ∧ k'.episodes = k.episodes)) ∧
    (a.ofRecall = true ∨ (k'.recalls = k.recalls ∧ k'.recallNext = k.recallNext)) ∧
    (a.ofOp = true ∨ (k'.ops = k.ops ∧ k'.opNext = k.opNext)) ∧
    (a.ofTransfer = true ∨ (k'.transfers = k.transfers ∧ k'.transferListed = k.transferListed ∧
      k'.transferNext = k.transferNext ∧ k'.transferLive = k.transferLive)) ∧
    ((∃ who, a = .transferOwnerExit who) ∨ (∃ mm errno, a = .accessFail mm errno) ∨
      k'.accessError = k.accessError) ∧
    ((∃ id nomem, a = .captureGuard id nomem) ∨ k'.runs = k.runs) ∧
    ((∃ who id mmIdentity idx cancel copied, a = .transferAck who id mmIdentity idx cancel copied) ∨
      k'.ackWrites = k.ackWrites) := by
  cases a
  all_goals
    simp only [step, Kernel.pgrecEraseRange, Kernel.zap, Kernel.populate, Kernel.store,
      Kernel.accessFail, Kernel.pgrecClaim, Kernel.pgrecLand, Kernel.recallBegin,
      Kernel.recallFinish, Kernel.recallPin, Kernel.recallLand, Kernel.recallConsume,
      Kernel.recallExit, Kernel.opBegin, Kernel.opReserve, Kernel.opCheck, Kernel.opPin,
      Kernel.opWrite, Kernel.opEnd, Kernel.opFail, Kernel.ctlPgset, Kernel.ctlPgack,
      Kernel.transferBegin, Kernel.transferReply, Kernel.transferCapture, Kernel.captureGuard,
      Kernel.captureRead, Kernel.captureClaim, Kernel.captureShared, Kernel.captureMark,
      Kernel.captureTake, Kernel.captureFinish, Kernel.transferRead, Kernel.transferReadEnd,
      Kernel.transferAck, Kernel.transferDrop, Kernel.transferForget, Kernel.transferOwnerExit,
      Kernel.transferDispose, Kernel.withTransfer, Kernel.transferFree] at ran
    (repeat' split at ran) <;> cases ran <;> refine ⟨?_, ?_, ?_, ?_, ?_, ?_, ?_⟩ <;>
      first
      | exact .inl rfl
      | exact .inr rfl
      | exact .inr ⟨rfl, rfl⟩
      | exact .inr ⟨rfl, rfl, rfl, rfl⟩
      | exact .inr (.inr rfl)
      | exact .inl ⟨_, rfl⟩
      | exact .inr (.inl ⟨_, _, rfl⟩)
      | exact .inl ⟨_, _, rfl⟩
      | exact .inl ⟨_, _, _, _, _, _, rfl⟩

/-! One lemma per section of a transfer ticket. -/

theorem TransferMove.refused : TransferMove k a k :=
  .untouched (.inr rfl) rfl rfl rfl rfl

theorem TransferMove.still {t' : Transfer} (ticket : k.transfers id = some t)
    (change : Change k id t a t' (k.pages t.page)) (pages : k'.pages = k.pages)
    (transfers : k'.transfers = update k.transfers id (some t'))
    (listed : k'.transferListed = k.transferListed) (next : k'.transferNext = k.transferNext)
    (live : k'.transferLive = k.transferLive) : TransferMove k a k' :=
  .changed ticket change (by rw [pages, update_eq_self]) transfers listed next live

theorem free_transfers (k : Kernel) (id : Nat) (t : Transfer) :
    ((k.transferFree id t).pages = if t.guarded then
        update k.pages t.page (k.pages t.page).release else k.pages) ∧
      (k.transferFree id t).transfers = update k.transfers id none ∧
      (k.transferFree id t).transferListed = k.transferListed ∧
      (k.transferFree id t).transferNext = k.transferNext ∧
      (k.transferFree id t).transferLive = k.transferLive := by
  unfold transferFree
  split <;> exact ⟨rfl, rfl, rfl, rfl, rfl⟩

theorem unlink_frees (ticket : k.transfers id = some t)
    (spent : t.pc = .replying ∨ (t.pc = .idle ∧ t.acknowledged = true ∧ id ∈ k.transferListed ∧
      ∃ mmIdentity idx, a = .transferForget t.owner id mmIdentity idx)) :
    TransferMove k a ((k.transferUnlink id).transferFree id t) := by
  obtain ⟨pages, transfers, listed, next, live⟩ := free_transfers (k.transferUnlink id) id t
  exact .freed ticket spent pages transfers listed next live

theorem withTransfer_cases {control : Transfer → Result}
    (ran : k.withTransfer who id mmIdentity idx control = some (k', reply)) :
    (k' = k ∧ (reply = .failed .ENOENT ∨ reply = .failed .ESTALE)) ∨
      ∃ t, k.transfers id = some t ∧ id ∈ k.transferListed ∧ t.owner = who ∧ t.pc = .idle ∧
        control t = some (k', reply) := by
  simp only [withTransfer, transferFind] at ran
  split at ran
  · next errno missing =>
    cases ran
    left
    split at missing
    · cases missing
      exact ⟨rfl, .inl rfl⟩
    · split at missing
      · cases missing
        exact ⟨rfl, .inl rfl⟩
      · split at missing
        · cases missing
          exact ⟨rfl, .inr rfl⟩
        · cases missing
  · next t found =>
    right
    split at ran
    · next idle =>
      split at found
      · cases found
      · next t' ticket =>
        split at found
        · cases found
        next mine =>
        split at found
        · cases found
        cases found
        rw [not_or, not_not, ne_eq, not_not] at mine
        exact ⟨t, ticket, mine.1, mine.2, idle, ran⟩
    · cases ran

theorem transferBegin_tickets {q : Page}
    (ran : k.transferBegin who q mmIdentity = some (k', reply)) :
    TransferMove k (.transferBegin who q mmIdentity) k' := by
  simp only [Kernel.transferBegin] at ran
  split at ran
  · cases ran
    exact .refused
  split at ran
  · cases ran
    exact .refused
  split at ran
  · cases ran
    exact .refused
  split at ran <;> cases ran
  · exact .refused
  · exact .begun rfl rfl rfl rfl rfl rfl

theorem transferReply_tickets (ran : k.transferReply id copied = some (k', reply)) :
    TransferMove k (.transferReply id copied) k' := by
  simp only [Kernel.transferReply] at ran
  split at ran
  · cases ran
  next t ticket =>
  split at ran
  · cases ran
  next replying =>
  rw [ne_eq, not_not] at replying
  split at ran <;> cases ran
  · exact .still ticket (.replied replying) rfl rfl rfl rfl rfl
  · exact unlink_frees ticket (.inl replying)

theorem transferCapture_tickets
    (ran : k.transferCapture who id mmIdentity idx copied = some (k', reply)) :
    TransferMove k (.transferCapture who id mmIdentity idx copied) k' := by
  obtain ⟨rfl, -⟩ | ⟨t, ticket, listed, rfl, waiting, ran⟩ := withTransfer_cases ran
  · exact .refused
  split at ran
  · cases ran
    exact .refused
  next unsettled =>
  split at ran
  · split at ran
    · cases ran
      exact .refused
    · split at ran <;> cases ran <;> exact .refused
  next first =>
  cases ran
  rw [Bool.not_eq_true] at unsettled first
  exact .still ticket (.attempts waiting listed unsettled first) rfl rfl rfl rfl rfl

theorem captureGuard_tickets (ran : k.captureGuard id nomem = some (k', reply)) :
    TransferMove k (.captureGuard id nomem) k' := by
  simp only [Kernel.captureGuard] at ran
  split at ran
  · cases ran
  next t ticket =>
  split at ran
  · cases ran
  next guarding =>
  rw [ne_eq, not_not] at guarding
  have fails (errno : Errno) : TransferMove k (.captureGuard id nomem)
      (k.setTransfer id (some { t with pc := .captured (some errno) t.result })) :=
    .still ticket (.guardFails guarding) rfl rfl rfl rfl rfl
  split at ran
  · cases ran
    exact fails .EBUSY
  next unreserved =>
  split at ran
  · cases ran
    exact fails .EBUSY
  next settled =>
  split at ran
  · cases ran
    exact fails .EOVERFLOW
  rw [Option.not_isSome_iff_eq_none] at unreserved
  rw [Bool.not_eq_true] at settled
  split at ran <;> cases ran
  · exact fails .ENOMEM
  · exact .changed ticket (.guards guarding unreserved settled) rfl rfl rfl rfl rfl

theorem captureRead_tickets {vma : Option Vma} {held : Bool}
    (ran : k.captureRead id vma held copy = some (k', reply)) :
    TransferMove k (.captureRead id vma held copy) k' := by
  simp only [Kernel.captureRead] at ran
  split at ran
  · cases ran
  next t ticket =>
  split at ran
  · cases ran
  next entering =>
  cases ran
  rw [ne_eq, not_not] at entering
  exact .still ticket (.reads entering) rfl rfl rfl rfl rfl

theorem captureClaim_tickets (ran : k.captureClaim id nomem = some (k', reply)) :
    TransferMove k (.captureClaim id nomem) k' := by
  simp only [Kernel.captureClaim] at ran
  split at ran
  · cases ran
  next t ticket =>
  split at ran
  case h_2 => cases ran
  next record sv sharing =>
  have fails (errno : Errno) : TransferMove k (.captureClaim id nomem)
      (k.setTransfer id (some { t with pc := .captured (some errno) sv })) :=
    .still ticket (.shareFails sharing) rfl rfl rfl rfl rfl
  split at ran
  · cases ran
    exact fails .ESTALE
  next live =>
  split at ran
  · cases ran
    exact fails .EAGAIN
  next read =>
  rw [Bool.not_eq_true] at live
  rw [ne_eq, not_not] at read
  split at ran <;> cases ran
  · exact fails .ENOMEM
  · exact .changed ticket (.shareClaims sharing live read) rfl rfl rfl rfl rfl

theorem captureShared_tickets (ran : k.captureShared id copy = some (k', reply)) :
    TransferMove k (.captureShared id copy) k' := by
  simp only [Kernel.captureShared] at ran
  split at ran
  · cases ran
  next t ticket =>
  split at ran
  case h_2 => cases ran
  next record claim sv copying =>
  split at ran
  next cancelled =>
    cases ran
    exact .still ticket (.shareLoses copying (.inl cancelled)) rfl rfl rfl rfl rfl
  next live =>
  rw [Bool.not_eq_true] at live
  -- Copying nothing and failing to copy both restore the record over a standing claim.
  have restores (errno : Errno) : TransferMove k (.captureShared id copy)
      ((k.setPage t.page (if (k.pages t.page).record = claim then
          (k.pages t.page).write record (.transfer id) else k.pages t.page)).setTransfer id
        (some { t with pc := .captured (some errno) sv, bytes := copy.bytes t.bytes })) := by
    split
    next standing =>
      exact .changed ticket (.shareRestores copying live standing) rfl rfl rfl rfl rfl
    next lost =>
      exact .still ticket (.shareLoses copying (.inr lost)) (update_eq_self _ _) rfl rfl
        rfl rfl
  split at ran
  · split at ran <;> cases ran
    next standing =>
      exact .changed ticket (.shareWins copying live standing) rfl rfl rfl rfl rfl
    next lost =>
      exact .still ticket (.shareLoses copying (.inr lost)) rfl rfl rfl rfl rfl
  · cases ran
    exact restores .EIOerr
  next errno =>
    cases ran
    exact restores errno

theorem captureMark_tickets (ran : k.captureMark id nomem = some (k', reply)) :
    TransferMove k (.captureMark id nomem) k' := by
  simp only [Kernel.captureMark] at ran
  split at ran
  · cases ran
  next t ticket =>
  split at ran
  case h_2 => cases ran
  next sv marking =>
  split at ran
  · cases ran
    exact .still ticket (.markMoved marking) rfl rfl rfl rfl rfl
  next here =>
  rw [not_and_or, ne_eq, ne_eq, not_not, not_not] at here
  split at ran <;> cases ran
  · exact .still ticket (.markFails marking) rfl rfl rfl rfl rfl
  · exact .changed ticket (.marks marking here) rfl rfl rfl rfl rfl

theorem captureTake_tickets (ran : k.captureTake id copy = some (k', reply)) :
    TransferMove k (.captureTake id copy) k' := by
  simp only [Kernel.captureTake] at ran
  split at ran
  · cases ran
  next t ticket =>
  split at ran
  case h_2 => cases ran
  next state sv taking =>
  cases ran
  by_cases standing : (k.pages t.page).record.state = .transit ∧ (k.pages t.page).record.sum = 0
  · refine .changed ticket (.takes taking standing) ?_ rfl rfl rfl rfl
    simp only [if_pos standing, setTransfer_pages, setPage_pages]
    rfl
  · refine .changed ticket (.takeLost taking standing) ?_ rfl rfl rfl rfl
    simp only [if_neg standing, setTransfer_pages, setPage_pages]

theorem captureFinish_tickets (ran : k.captureFinish id copied = some (k', reply)) :
    TransferMove k (.captureFinish id copied) k' := by
  simp only [Kernel.captureFinish] at ran
  split at ran
  · cases ran
  next t ticket =>
  split at ran
  case h_2 => cases ran
  next error sv captured =>
  cases ran
  exact .still ticket (.finishes captured) rfl rfl rfl rfl rfl

theorem transferRead_tickets
    (ran : k.transferRead who id mmIdentity idx copied = some (k', reply)) :
    TransferMove k (.transferRead who id mmIdentity idx copied) k' := by
  obtain ⟨rfl, -⟩ | ⟨t, ticket, listed, rfl, waiting, ran⟩ := withTransfer_cases ran
  · exact .refused
  split at ran
  · cases ran
    exact .refused
  next attempted =>
  split at ran
  · cases ran
    exact .refused
  next unsettled =>
  split at ran
  · cases ran
    exact .refused
  split at ran
  · cases ran
    exact .refused
  next succeeded =>
  cases ran
  rw [Bool.not_eq_true] at unsettled
  rw [Bool.not_eq_false] at attempted
  exact .still ticket (.offers waiting listed unsettled ⟨attempted, succeeded⟩) rfl rfl rfl rfl rfl

theorem transferReadEnd_tickets (ran : k.transferReadEnd id copied = some (k', reply)) :
    TransferMove k (.transferReadEnd id copied) k' := by
  simp only [Kernel.transferReadEnd] at ran
  split at ran
  · cases ran
  next t ticket =>
  split at ran
  case h_2 => cases ran
  next read reading =>
  have ends : TransferMove k (.transferReadEnd id copied)
      ({ k with transferReads := k.transferReads + 1 }.setTransfer id
        (some { t with pc := .idle })) := .still ticket (.readEnds reading) rfl rfl rfl rfl rfl
  split at ran
  · cases ran
    exact ends
  split at ran <;> cases ran <;> exact ends

theorem transferAck_tickets {cancel : Bool}
    (ran : k.transferAck who id mmIdentity idx cancel copied = some (k', reply)) :
    TransferMove k (.transferAck who id mmIdentity idx cancel copied) k' := by
  obtain ⟨rfl, -⟩ | ⟨t, ticket, listed, rfl, waiting, ran⟩ := withTransfer_cases ran
  · exact .refused
  simp only at ran
  split at ran
  · split at ran
    · cases ran
      exact .refused
    · split at ran <;> cases ran <;> exact .refused
  next unsettled =>
  rw [Bool.not_eq_true] at unsettled
  split at ran
  · cases ran
    exact .refused
  next allowed =>
  split at ran
  · cases ran
    exact .refused
  next ready =>
  split at ran
  next gone =>
    cases ran
    exact .still ticket (.settles waiting listed unsettled (.inl gone)) rfl rfl rfl rfl rfl
  next live =>
  rw [Bool.not_eq_true] at live
  split at ran
  next acks =>
    obtain ⟨rfl, grants⟩ := acks
    split at ran
    · cases ran
      exact .refused
    next handed =>
    cases ran
    rw [ne_eq, not_not] at handed
    have offered : t.offered = true := by
      simp only [true_and, not_or, Bool.not_eq_false] at ready
      exact ready.2.2
    exact .changed ticket (.acks waiting listed unsettled offered grants live handed) rfl rfl rfl
      rfl rfl
  next other =>
    cases ran
    have bare : t.grants = false := by
      cases cancel <;> simp_all
    exact .still ticket (.settles waiting listed unsettled (.inr bare)) rfl rfl rfl rfl rfl

theorem transferDrop_tickets (ran : k.transferDrop id copied = some (k', reply)) :
    TransferMove k (.transferDrop id copied) k' := by
  simp only [Kernel.transferDrop] at ran
  split at ran
  · cases ran
  next t ticket =>
  split at ran
  case h_2 => cases ran
  next cancel dropping =>
  cases ran
  refine .changed ticket (.drops dropping rfl) ?_ ?_ ?_ ?_ ?_
  · split <;> simp
  all_goals split <;> rfl

theorem transferForget_tickets (ran : k.transferForget who id mmIdentity idx = some (k', reply)) :
    TransferMove k (.transferForget who id mmIdentity idx) k' := by
  obtain ⟨rfl, -⟩ | ⟨t, ticket, listed, rfl, waiting, ran⟩ := withTransfer_cases ran
  · exact .refused
  split at ran
  · cases ran
    exact .refused
  next settled =>
  cases ran
  rw [Bool.not_eq_false] at settled
  exact unlink_frees ticket (.inr ⟨waiting, settled, listed, _, _, rfl⟩)

theorem transferOwnerExit_tickets (ran : k.transferOwnerExit who = some (k', reply)) :
    TransferMove k (.transferOwnerExit who) k' := by
  have replied : reply = .ok := by
    simp only [Kernel.transferOwnerExit] at ran
    split at ran <;> cases ran
    rfl
  rw [replied] at ran
  exact .exited rfl ran

theorem transferDispose_tickets (ran : k.transferDispose id = some (k', reply)) :
    TransferMove k (.transferDispose id) k' := by
  simp only [Kernel.transferDispose] at ran
  split at ran
  · cases ran
  next t ticket =>
  split at ran
  · cases ran
  next unlisted =>
  cases ran
  obtain ⟨pages, transfers, listed, next, live⟩ := free_transfers k id t
  exact .disposed ticket unlisted pages transfers listed next live

theorem step_tickets (ran : step k a = some (k', reply)) : TransferMove k a k' := by
  cases other : a.ofTransfer with
  | false =>
    obtain ⟨-, -, -, own | ⟨transfers, listed, next, live⟩, -⟩ := step_frame ran
    · rw [other] at own
      cases own
    · exact .untouched (.inl other) transfers listed next live
  | true =>
    cases a with
    | transferBegin => exact transferBegin_tickets ran
    | transferReply => exact transferReply_tickets ran
    | transferCapture => exact transferCapture_tickets ran
    | captureGuard => exact captureGuard_tickets ran
    | captureRead => exact captureRead_tickets ran
    | captureClaim => exact captureClaim_tickets ran
    | captureShared => exact captureShared_tickets ran
    | captureMark => exact captureMark_tickets ran
    | captureTake => exact captureTake_tickets ran
    | captureFinish => exact captureFinish_tickets ran
    | transferRead => exact transferRead_tickets ran
    | transferReadEnd => exact transferReadEnd_tickets ran
    | transferAck => exact transferAck_tickets ran
    | transferDrop => exact transferDrop_tickets ran
    | transferForget => exact transferForget_tickets ran
    | transferOwnerExit => exact transferOwnerExit_tickets ran
    | transferDispose => exact transferDispose_tickets ran
    | _ => cases other

end Vmctx.Custody
