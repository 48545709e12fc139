import Vmctx.Custody.Writers
/-!
# Hand-overs in flight

A capture that hands a page over leaves its record in `TRANSIT` until the acknowledgement. The
record is backed as long as its ticket can still settle it: the ticket is listed and unsettled and
its guard reserves the page uncancelled. An owner that leaves such a ticket behind poisons the
address space.

The private path checks for a cancellation, drops the lock, and marks the record by a
compare-and-swap. An erasure in between is not seen: the cancelled ticket writes `TRANSIT`, its
capture fails, and cancelling and forgetting the ticket leaves a record that no ticket can settle.
When the private path marks only records of uncancelled tickets, every hand-over is backed.
-/

namespace Vmctx.Custody

open Kernel Vmctx.System Function

variable {k k' : Kernel} {a : Act} {reply : Reply} {p : Page}

/-- The condition: the private path marks the record of a ticket that is not cancelled. -/
def marksLive (k : Kernel) : Act → Bool
  | .captureMark id _ => (k.transfers id).all fun t => !(k.pages t.page).cancelled (.transfer id)
  | _ => true

/-- A ticket's `CAPTURE` is handing the page over, or has done so. -/
def Transfer.hands (t : Transfer) : Bool :=
  match t.pc with
  | .taking .. => true
  | .captured none sv => sv.status == some .taken || sv.grant
  | .idle => t.grants
  | .reading _ => t.grants
  | _ => false

structure Kernel.Backs (k : Kernel) (id : Nat) (p : Page) : Prop where
  ticket : ∃ t, k.transfers id = some t ∧ t.page = p ∧ t.acknowledged = false ∧ t.hands = true ∧
    ∀ state sv, t.pc = .taking state sv → (k.pages p).record.sum = 0
  listed : id ∈ k.transferListed
  reserves : (k.pages p).entry = some ⟨.transfer id, false⟩

def Kernel.TransitBacked (k : Kernel) : Prop :=
  ∀ p id, (k.pages p).record.state = .transit → (k.pages p).wrote = .transfer id →
    k.Backs id p ∨ k.accessError p.mm ≠ none

def Kernel.CancelledQuiet (k : Kernel) : Prop :=
  ∀ p id, (k.pages p).entry = some ⟨.transfer id, true⟩ → (k.pages p).record.state ≠ .transit

theorem step_cancelled_quiet (good : k.Good) (live : marksLive k a = true)
    (quiet : k.CancelledQuiet) (ran : step k a = some (k', reply)) : k'.CancelledQuiet := by
  intro p id entry'
  cases step_moves good ran p with
  | quiet page =>
    obtain ⟨record, entry, -, -⟩ := PageState.core_eq.mp page
    rw [entry] at entry'
    rw [record]
    exact quiet p id entry'
  | erased _ page =>
    rw [(PageState.core_eq.mp page).1]
    simp [PageState.erase, PgRec.absent]
  | wrote writes page =>
    obtain ⟨record, entry, -, -⟩ := PageState.core_eq.mp page
    have before : (k.pages p).entry = some ⟨.transfer id, true⟩ := by
      rw [← entry']
      exact entry.symm
    cases writes with
    | mark ticket own _ held =>
      rw [before] at held
      cases held
      simp [marksLive, ticket, own, PageState.cancelled, before] at live
    | take _ _ _ _ standing => exact absurd standing.1 (quiet p id before)
    | _ => simp_all
  | reserved _ _ page | released _ _ page | recalled _ _ _ page =>
    rw [(PageState.core_eq.mp page).2.1] at entry'
    cases entry'
  | unlinked _ _ _ _ page =>
    rw [(PageState.core_eq.mp page).2.1] at entry'
    unfold recallUnlinkPage at entry'
    split at entry' <;> cases entry'

theorem step_poisoned {mm : Nat} (ran : step k a = some (k', reply))
    (poisoned : k.accessError mm ≠ none) : k'.accessError mm ≠ none := by
  obtain ⟨-, -, -, -, ⟨who, exits⟩ | ⟨other, errno, fails⟩ | same, -⟩ := step_frame ran
  · subst exits
    simp only [step, transferOwnerExit] at ran
    split at ran <;> cases ran
    dsimp only
    split
    · simp
    · exact poisoned
  · subst fails
    cases ran
    simp only [update_apply]
    split
    · simp
    · exact poisoned
  · rw [same]
    exact poisoned

theorem captureOutcome_hands {state : PgState} {sv : Served} {copy : Copy} {gen : UInt32}
    (here : state = .home ∨ state = .none)
    (transit : (captureOutcome state sv copy gen).1.state = .transit) :
    (captureOutcome state sv copy gen).2.1 = none ∧
      ((captureOutcome state sv copy gen).2.2.status = some .taken ∨
        (captureOutcome state sv copy gen).2.2.grant = true) := by
  cases copy <;> rcases here with rfl | rfl <;> simp_all [captureOutcome]

section Backing

variable {id : Nat} {t t' : Transfer} {s' : PageState}

theorem Kernel.Backs.keep (backs : k.Backs id p) (record : (k'.pages p).record = (k.pages p).record)
    (entry : (k'.pages p).entry = (k.pages p).entry) (ticket : k'.transfers id = k.transfers id)
    (listed : id ∈ k.transferListed → id ∈ k'.transferListed) : k'.Backs id p where
  ticket := by
    rw [ticket, record]
    exact backs.ticket
  listed := listed backs.listed
  reserves := by rw [entry, backs.reserves]

/-- A ticket that backs a page is not one of another page, and not one that hands nothing over. -/
theorem Kernel.Backs.apart (backs : k.Backs id p) {other : Nat}
    (ticket : k.transfers other = some t) (not : t.page ≠ p ∨ t.hands = false) : id ≠ other := by
  rintro rfl
  obtain ⟨t', found, page, -, hands, -⟩ := backs.ticket
  rw [ticket] at found
  cases found
  rcases not with elsewhere | idle
  · exact elsewhere page
  · rw [idle] at hands
    cases hands

theorem other_transit_backed (good : k.Good) (backed : k.TransitBacked)
    (other : a.ofTransfer = false) (transfers : k'.transfers = k.transfers)
    (listed : k'.transferListed = k.transferListed) (ran : step k a = some (k', reply)) :
    k'.TransitBacked := by
  intro p id transit wrote
  -- What was backed before and is still the same page is backed or poisoned.
  have before (record : (k'.pages p).record = (k.pages p).record)
      (writer : (k'.pages p).wrote = (k.pages p).wrote)
      (entry : (k.pages p).entry = some ⟨.transfer id, false⟩ →
        (k'.pages p).entry = (k.pages p).entry) :
      k'.Backs id p ∨ k'.accessError p.mm ≠ none := by
    rw [record] at transit
    rw [writer] at wrote
    rcases backed p id transit wrote with backs | poisoned
    · exact .inl (backs.keep record (entry backs.reserves) (by rw [transfers])
        (by rw [listed]; exact fun member => member))
    · exact .inr (step_poisoned ran poisoned)
  cases step_moves good ran p with
  | quiet page =>
    obtain ⟨record, entry, writer, -⟩ := PageState.core_eq.mp page
    exact before record writer fun _ => entry
  | erased _ page =>
    rw [(PageState.core_eq.mp page).1] at transit
    cases transit
  | wrote writes page =>
    rw [(PageState.core_eq.mp page).2.2.1] at wrote
    cases writes with
    | claim | land | op | pgset | pgack => cases wrote
    | _ => cases other
  | reserved unreserved _ page =>
    obtain ⟨record, -, writer, -⟩ := PageState.core_eq.mp page
    refine before record writer fun reserved => ?_
    rw [unreserved] at reserved
    cases reserved
  | released held by_ page =>
    obtain ⟨record, -, writer, -⟩ := PageState.core_eq.mp page
    refine before record writer fun reserved => ?_
    rcases by_ with ⟨op, -, same⟩ | ⟨own, -⟩
    · rw [same, ← good.agreed, table, reserved] at held
      cases held
    · rw [other] at own
      cases own
  | recalled _ _ _ page =>
    rw [(PageState.core_eq.mp page).2.2.1] at wrote
    cases wrote
  | @unlinked ticket _ _ _ found here _ _ page =>
    obtain ⟨record, -, writer, -⟩ := PageState.core_eq.mp page
    unfold recallUnlinkPage at record writer
    split at record
    next own =>
      rw [writer, if_pos own] at wrote
      cases wrote
    next free =>
      rw [if_neg free] at writer
      refine before record writer fun reserved => ?_
      have held : k.Holds (.recallTicket ticket) p := ⟨_, found, here⟩
      rw [← good.agreed, table, reserved] at held
      cases held

/-- A section takes the ticket `id` from `t` to `t'` and its page to `s'`. -/
structure Moved (k k' : Kernel) (id : Nat) (t t' : Transfer) (s' : PageState) : Prop where
  ticket : k.transfers id = some t
  pages : k'.pages = update k.pages t.page s'
  transfers : k'.transfers = update k.transfers id (some t')
  listed : k'.transferListed = k.transferListed
  member : id ∈ k.transferListed
  poisoned : ∀ mm, k.accessError mm ≠ none → k'.accessError mm ≠ none

section Moving

variable {writer : Nat} (moved : Moved k k' id t t' s') (backed : k.TransitBacked)
  (transit : s'.record.state = .transit) (wrote : s'.wrote = .transfer writer)
include moved backed transit wrote

/-- What another ticket backs on the page stays backed by it. -/
theorem Moved.stays (apart : k.Backs writer t.page → writer ≠ id)
    (record : s'.record = (k.pages t.page).record)
    (entry : k.Backs writer t.page → s'.entry = (k.pages t.page).entry)
    (same : s'.wrote = (k.pages t.page).wrote) :
    k'.Backs writer t.page ∨ k'.accessError t.page.mm ≠ none := by
  have here : k'.pages t.page = s' := by rw [moved.pages, update_self]
  rw [record] at transit
  rw [same] at wrote
  rcases backed t.page writer transit wrote with backs | poisoned
  · refine .inl (backs.keep (by rw [here, record]) (by rw [here, entry backs]) ?_ ?_)
    · rw [moved.transfers, update_of_ne (apart backs)]
    · rw [moved.listed]
      exact fun member => member
  · exact .inr (moved.poisoned _ poisoned)

/-- A ticket that hands nothing over backs nothing. -/
theorem Moved.keep (idle : t.hands = false) (record : s'.record = (k.pages t.page).record)
    (entry : s'.entry = (k.pages t.page).entry) (same : s'.wrote = (k.pages t.page).wrote) :
    k'.Backs writer t.page ∨ k'.accessError t.page.mm ≠ none :=
  moved.stays backed transit wrote (fun backs => backs.apart moved.ticket (.inr idle)) record
    (fun _ => entry) same

/-- A ticket that goes on handing its page over backs it after the change. -/
theorem Moved.goOn (page : s' = k.pages t.page) (same : t'.page = t.page)
    (unsettled : t.acknowledged = false → t.hands = true →
      (k.pages t.page).entry = some ⟨.transfer id, false⟩ →
      t'.acknowledged = false ∧ t'.hands = true) (untaken : ∀ state sv, t'.pc ≠ .taking state sv) :
    k'.Backs writer t.page ∨ k'.accessError t.page.mm ≠ none := by
  subst page
  by_cases own : writer = id
  · subst own
    rcases backed t.page writer transit wrote with backs | poisoned
    · obtain ⟨t'', found, -, unacknowledged, hands, -⟩ := backs.ticket
      rw [moved.ticket] at found
      cases found
      obtain ⟨open', hands'⟩ := unsettled unacknowledged hands backs.reserves
      refine .inl ⟨⟨t', ?_, same, open', hands', fun state sv at_ => ?_⟩, ?_, ?_⟩
      · rw [moved.transfers, update_self]
      · exact absurd at_ (untaken state sv)
      · rw [moved.listed]
        exact moved.member
      · rw [moved.pages, update_self, backs.reserves]
    · exact .inr (moved.poisoned _ poisoned)
  · exact moved.stays backed transit wrote (fun _ => own) rfl (fun _ => rfl) rfl

omit backed transit in
/-- A capture that has just written the hand-over backs it. -/
theorem Moved.fresh (good : k.Good) (capturing : t.pc.capturing = true) (same : t'.page = t.page)
    (acknowledged : t'.acknowledged = t.acknowledged) (own : s'.wrote = .transfer id)
    (entry : s'.entry = (k.pages t.page).entry)
    (alive : (k.pages t.page).cancelled (.transfer id) = false) (hands : t'.hands = true)
    (sum : ∀ state sv, t'.pc = .taking state sv → s'.record.sum = 0) :
    k'.Backs writer t.page ∨ k'.accessError t.page.mm ≠ none := by
  rw [own] at wrote
  cases wrote
  have here : k'.pages t.page = s' := by rw [moved.pages, update_self]
  have formed := good.formed id t moved.ticket
  have running : t.pc.running = true := by
    cases pc : t.pc <;> simp_all [TransferPc.running, TransferPc.capturing]
  have unsettled := (formed.running running).2.1
  have guarded := formed.capturing capturing
  have reserved :=
    good.agreed.entry_live (h := .transfer id) ⟨t, moved.ticket, rfl, guarded⟩ alive
  refine .inl ⟨⟨t', ?_, same, by rw [acknowledged, unsettled], hands, ?_⟩, ?_, ?_⟩
  · rw [moved.transfers, update_self]
  · rw [here]
    exact sum
  · rw [moved.listed]
    exact moved.member
  · rw [here, entry, reserved]

end Moving

theorem changed_transit_backed (good : k.Good) (live : marksLive k a = true)
    (quiet : k.CancelledQuiet) (backed : k.TransitBacked) (change : Change k id t a t' s')
    (moved : Moved k k' id t t' s') {writer : Nat} (transit : s'.record.state = .transit)
    (wrote : s'.wrote = .transfer writer) :
    k'.Backs writer t.page ∨ k'.accessError t.page.mm ≠ none := by
  have ticket := moved.ticket
  have formed := good.formed id t ticket
  have stays := moved.stays backed transit wrote
  have keep := moved.keep backed transit wrote
  have goOn := moved.goOn backed transit wrote
  have fresh := moved.fresh wrote good
  cases change with
  | replied at_ | guardFails at_ | reads at_ | shareFails at_ | shareLoses at_ | markMoved at_
  | markFails at_ => exact keep (by simp [Transfer.hands, at_]) rfl rfl rfl
  | attempts waiting _ _ first =>
    exact keep (by simp [Transfer.hands, Transfer.grants, waiting, first]) rfl rfl rfl
  | guards _ _ settled =>
    simp only [PageState.reserve] at transit
    simp [PgRec.inFlight, transit] at settled
  | shareClaims | acks => cases transit
  | shareRestores at_ =>
    have sound := formed.sound
    rw [at_] at sound
    have stood := sound.1
    simp only [PageState.write] at transit
    simp [PgRec.inFlight, transit] at stood
  | shareWins at_ alive =>
    exact fresh (by rw [at_]; rfl) rfl rfl rfl rfl alive (by simp [Transfer.hands]) (by simp)
  | marks at_ =>
    have alive : (k.pages t.page).cancelled (.transfer id) = false := by
      simpa [marksLive, ticket] using live
    exact fresh (by rw [at_]; rfl) rfl rfl rfl rfl alive rfl fun _ _ _ => rfl
  | takeLost at_ gone =>
    refine stays (fun backs => ?_) rfl (fun _ => rfl) rfl
    rintro rfl
    obtain ⟨t'', found', -, -, -, sum⟩ := backs.ticket
    rw [ticket] at found'
    cases found'
    exact gone ⟨transit, sum _ _ at_⟩
  | takes at_ standing =>
    have guarded := formed.capturing (by rw [at_]; rfl)
    have sound := formed.sound
    rw [at_] at sound
    obtain ⟨cancelled, entry⟩ :=
      good.agreed.entry (h := .transfer id) ⟨t, ticket, rfl, guarded⟩
    have alive : (k.pages t.page).cancelled (.transfer id) = false := by
      cases cancelled with
      | false => simp [PageState.cancelled, entry]
      | true => exact absurd standing.1 (quiet t.page id entry)
    obtain ⟨returned, granting⟩ := captureOutcome_hands sound transit
    refine fresh (by rw [at_]; rfl) rfl rfl rfl rfl alive ?_ (by simp)
    simpa [Transfer.hands, returned] using granting
  | finishes at_ =>
    refine goOn rfl rfl ?_ (by simp)
    intro unsettled hands reserved
    have attempted := (formed.running (by rw [at_]; rfl)).1
    refine ⟨unsettled, ?_⟩
    simp only [Transfer.hands, at_] at hands
    split at hands <;> simp_all [Transfer.hands, Transfer.grants, PageState.cancelled]
  | offers waiting =>
    refine goOn rfl rfl ?_ (by simp)
    intro unsettled hands _
    simp only [Transfer.hands, waiting] at hands
    exact ⟨unsettled, hands⟩
  | readEnds at_ =>
    refine goOn rfl rfl ?_ (by simp)
    intro unsettled hands _
    simp only [Transfer.hands, at_] at hands
    exact ⟨unsettled, hands⟩
  | settles waiting _ _ nothing =>
    refine goOn rfl rfl ?_ (by simp)
    intro unsettled hands reserved
    simp only [Transfer.hands, waiting] at hands
    rcases nothing with gone | bare
    · simp [PageState.cancelled, reserved] at gone
    · rw [bare] at hands
      cases hands
  | drops at_ page =>
    have idle : t.hands = false := by simp [Transfer.hands, at_]
    subst page
    cases guarded : t.guarded with
    | false => refine keep idle ?_ ?_ ?_ <;> simp [guarded]
    | true =>
      refine stays (fun backs => backs.apart ticket (.inr idle)) (by simp [guarded]; rfl)
        (fun backs => ?_) (by simp [guarded]; rfl)
      obtain ⟨cancelled, entry⟩ :=
        good.agreed.entry (h := .transfer id) ⟨t, ticket, rfl, guarded⟩
      have own := backs.reserves
      rw [entry] at own
      cases own
      exact absurd rfl (backs.apart ticket (.inr idle))

theorem freed_transit_backed (good : k.Good) (backed : k.TransitBacked)
    (ticket : k.transfers id = some t) (apart : ∀ p other, k.Backs other p → other ≠ id)
    (pages : k'.pages = if t.guarded then
      update k.pages t.page (k.pages t.page).release else k.pages)
    (transfers : k'.transfers = update k.transfers id none)
    (listed : ∀ other, other ≠ id → other ∈ k.transferListed → other ∈ k'.transferListed)
    (ran : step k a = some (k', reply)) : k'.TransitBacked := by
  intro p writer transit wrote
  have same : (k'.pages p).record = (k.pages p).record ∧
      (k'.pages p).wrote = (k.pages p).wrote := by
    rw [pages]
    split
    · rw [update_apply]
      split
      · next here =>
        rw [here]
        exact ⟨rfl, rfl⟩
      · exact ⟨rfl, rfl⟩
    · exact ⟨rfl, rfl⟩
  rw [same.1] at transit
  rw [same.2] at wrote
  rcases backed p writer transit wrote with backs | poisoned
  · have other := apart p writer backs
    refine .inl (backs.keep same.1 ?_ ?_ (listed writer other))
    · -- The page released is the freed ticket's, so it is not this one.
      rw [pages]
      split
      · next guarded =>
        rw [update_apply]
        split
        · next here =>
          obtain ⟨cancelled, entry⟩ :=
            good.agreed.entry (h := .transfer id) ⟨t, ticket, rfl, guarded⟩
          have own := backs.reserves
          rw [here, entry] at own
          cases own
          exact absurd rfl other
        · rfl
      · rfl
    · rw [transfers, update_of_ne other]
  · exact .inr (step_poisoned ran poisoned)

theorem exited_transit_backed {who : Nat} (backed : k.TransitBacked)
    (ran : k.transferOwnerExit who = some (k', reply)) : k'.TransitBacked := by
  intro p id transit wrote
  obtain ⟨remaining, -, -, waiting⟩ := exit_listed ran
  have moved : step k (.transferOwnerExit who) = some (k', reply) := ran
  have pages : k'.pages = k.pages := by
    simp only [transferOwnerExit] at ran
    split at ran <;> cases ran
    rfl
  rw [pages] at transit wrote
  rcases backed p id transit wrote with backs | poisoned
  · obtain ⟨t, ticket, page, unsettled, hands, sum⟩ := backs.ticket
    by_cases mine : t.owner = who
    · -- The ticket waits with a grant, which the thread abandons.
      have idle := waiting id t ticket backs.listed mine
      have grants : t.grants = true := by simpa [Transfer.hands, idle] using hands
      have abandons : k.transferListed.any (k.abandonsIn who p.mm) = true := by
        rw [List.any_eq_true]
        refine ⟨id, backs.listed, ?_⟩
        simp [abandonsIn, abandoned, ticket, mine, page, grants, unsettled, PageState.cancelled,
          backs.reserves]
      right
      simp only [transferOwnerExit] at ran
      split at ran <;> cases ran
      simp [abandons]
    · left
      obtain ⟨t', after⟩ := exit_keeps ran ticket
      obtain ⟨t'', poisoned, found, rfl⟩ := exit_tickets ran after
      rw [ticket] at found
      cases found
      refine ⟨⟨_, after, page, unsettled, hands, ?_⟩, ?_, ?_⟩
      · rw [pages]
        exact sum
      · rw [remaining, List.mem_filter]
        exact ⟨backs.listed, by simp [ownedBy, ticket, mine]⟩
      · rw [pages, backs.reserves]
  · exact .inr (step_poisoned moved poisoned)

end Backing

theorem step_transit_backed (good : k.Good) (live : marksLive k a = true) (quiet : k.CancelledQuiet)
    (backed : k.TransitBacked) (ran : step k a = some (k', reply)) : k'.TransitBacked := by
  cases step_tickets ran with
  | untouched idle transfers listed =>
    rcases idle with other | same
    · exact other_transit_backed good backed other transfers listed ran
    · rw [same]
      exact backed
  | begun _ pages transfers listed =>
    intro p id transit wrote
    rw [pages] at transit wrote
    rcases backed p id transit wrote with backs | poisoned
    · obtain ⟨t, ticket, -⟩ := backs.ticket
      have apart : id ≠ k.transferNext + 1 := by
        rintro rfl
        rw [good.transferFresh _ (Nat.lt_succ_self _)] at ticket
        cases ticket
      refine .inl (backs.keep (by rw [pages]) (by rw [pages]) ?_ ?_)
      · rw [transfers, update_of_ne apart]
      · rw [listed]
        exact List.mem_cons_of_mem _
    · exact .inr (step_poisoned ran poisoned)
  | @changed id t t' ticket s' change pages transfers listed =>
    intro p writer transit wrote
    by_cases here : p = t.page
    · subst here
      rw [pages, update_self] at transit wrote
      have moved : Moved k k' id t t' s' := ⟨ticket, pages, transfers, listed,
        change.listed good.toListing ticket, fun _ => step_poisoned ran⟩
      exact changed_transit_backed good live quiet backed change moved transit wrote
    · have same : k'.pages p = k.pages p := by rw [pages, update_of_ne here]
      rw [same] at transit wrote
      rcases backed p writer transit wrote with backs | poisoned
      · have apart := backs.apart ticket (.inl fun page => here page.symm)
        refine .inl (backs.keep (by rw [same]) (by rw [same]) ?_ ?_)
        · rw [transfers, update_of_ne apart]
        · rw [listed]
          exact fun member => member
      · exact .inr (step_poisoned ran poisoned)
  | @freed id t ticket spent pages transfers listed =>
    refine freed_transit_backed good backed ticket ?_ pages transfers ?_ ran
    · rintro p other backs rfl
      obtain ⟨t', found, -, unsettled, hands, -⟩ := backs.ticket
      rw [ticket] at found
      cases found
      rcases spent with replying | ⟨-, settled, -⟩
      · simp [Transfer.hands, replying] at hands
      · rw [settled] at unsettled
        cases unsettled
    · intro other apart member
      rw [listed]
      exact (List.mem_erase_of_ne apart).mpr member
  | @disposed id t ticket unlisted pages transfers listed =>
    refine freed_transit_backed good backed ticket ?_ pages transfers ?_ ran
    · rintro p other backs rfl
      exact unlisted backs.listed
    · intro other _ member
      rw [listed]
      exact member
  | exited _ exits => exact exited_transit_backed backed exits

/-- A page record that a capture left in `TRANSIT` is backed by a listed, unsettled and uncancelled
ticket that reserves the page, or its address space is poisoned, in every run in which the private
path marks only records of uncancelled tickets. -/
theorem transit_is_backed {id : Nat} (run : ReachedWhen (fun k a => marksLive k a = true) k)
    (transit : (k.pages p).record.state = .transit) (wrote : (k.pages p).wrote = .transfer id) :
    (∃ t, k.transfers id = some t ∧ t.page = p ∧ t.acknowledged = false ∧
      id ∈ k.transferListed ∧ k.table p = some (.transfer id) ∧
      (k.pages p).cancelled (.transfer id) = false) ∨ k.accessError p.mm ≠ none := by
  have both : k.CancelledQuiet ∧ k.TransitBacked := by
    apply run.invariant
    · rintro before a after reply reached live ⟨quiet, backed⟩ ran
      exact ⟨step_cancelled_quiet reached.good live quiet ran,
        step_transit_backed reached.good live quiet backed ran⟩
    · intro memory pins traceId monTgid tgid
      constructor
      · intro p id entry
        cases entry
      · intro p id transit
        cases transit
  rcases both.2 p id transit wrote with backs | poisoned
  · obtain ⟨t, ticket, page, unsettled, -⟩ := backs.ticket
    exact .inl ⟨t, ticket, page, unsettled, backs.listed, by simp [table, backs.reserves],
      by simp [PageState.cancelled, backs.reserves]⟩
  · exact .inr poisoned

def privateVma : Vma := ⟨false, false, false, true, false⟩

def handOver : List Act :=
  [.transferBegin 1 ⟨0, 5⟩ 7, .transferReply 1 true, .transferCapture 1 1 7 5 true,
    .captureGuard 1 false, .captureRead 1 (some privateVma) false .absent, .captureMark 1 false,
    .captureTake 1 (.page zeroPage 9), .captureFinish 1 true]

/-- A private page is in transit, and the ticket that captured it is still listed. -/
theorem transit_is_backed_handOver :
    ∃ k, ReachedWhen (fun k a => marksLive k a = true) k ∧
      (k.pages ⟨0, 5⟩).record.state = .transit ∧
      ((∃ t, k.transfers 1 = some t ∧ t.page = ⟨0, 5⟩ ∧ t.acknowledged = false ∧
        1 ∈ k.transferListed ∧ k.table ⟨0, 5⟩ = some (.transfer 1) ∧
        (k.pages ⟨0, 5⟩).cancelled (.transfer 1) = false) ∨ k.accessError 0 ≠ none) := by
  have ran : (exec (fun k a => if marksLive k a then next k a else none) Kernel.boot
      handOver).any (fun k => decide ((k.pages ⟨0, 5⟩).record.state = .transit ∧
        (k.pages ⟨0, 5⟩).wrote = .transfer 1)) = true := by decide
  obtain ⟨k, run, found⟩ := exec_exhibits_guarded ran
  obtain ⟨transit, wrote⟩ := of_decide_eq_true found
  have reached : ReachedWhen (fun k a => marksLive k a = true) k := ⟨_, _, _, _, _, run⟩
  exact ⟨k, reached, transit, transit_is_backed reached transit wrote⟩

/-- The page is discarded between the check of a capture and its mark. The capture finds nothing and
fails as stale; its ticket is cancelled and forgotten. -/
def discardedUnderCapture : List Act :=
  [.transferBegin 1 ⟨0, 5⟩ 7, .transferReply 1 true, .transferCapture 1 1 7 5 true,
    .captureGuard 1 false, .captureRead 1 (some privateVma) false .absent, .erase 0 5 5,
    .captureMark 1 false, .captureTake 1 .absent, .captureFinish 1 true,
    .transferAck 1 1 7 5 true true, .transferDrop 1 true, .transferForget 1 1 7 5]

/-- A discard between the check and the mark of a private capture leaves a record in `TRANSIT` that
no ticket can settle, in an address space that is not poisoned. -/
theorem discarded_capture_orphans_transit :
    ∃ k, Reached k ∧ (k.pages ⟨0, 5⟩).record.state = .transit ∧
      (k.pages ⟨0, 5⟩).wrote = .transfer 1 ∧ (∀ id, k.transfers id = none) ∧
      k.table ⟨0, 5⟩ = none ∧ k.accessError 0 = none := by
  let k := (exec next Kernel.boot discardedUnderCapture).get (by decide)
  have reached : Reached k := ⟨_, _, _, _, _, exec_get_reach _⟩
  refine ⟨k, reached, by decide, by decide, ?_, by decide, by decide⟩
  intro id
  match id with
  | 0 => rfl
  | 1 => rfl
  | later + 2 =>
    have spent : k.transferNext = 1 := rfl
    exact reached.good.transferFresh _ (by omega)

end Vmctx.Custody
