import Vmctx.Custody.Recall
/-!
# Who is answerable for a claim

A record in `CLAIM` was written by a fault, by `PGSET`, by a recall ticket or by the shared path of
a capture. The last two keep the page reserved as long as their claim stands: a ticket's claim
stands only under its uncancelled reservation, and a capture's only while the capture is copying.
A claim of a fault or of `PGSET` stands on a page that no ticket holds. So an unreserved claim is a
fault's or `PGSET`'s, and a claim under a ticket is the ticket's own.
-/

namespace Vmctx.Custody

open Kernel Function

variable {k k' : Kernel} {a : Act} {reply : Reply} {p : Page}

def Kernel.Ticketless (k : Kernel) (p : Page) : Prop :=
  (k.pages p).entry = none ∨ ∃ op cancelled, (k.pages p).entry = some ⟨.guard op, cancelled⟩

def Kernel.ClaimOwner (k : Kernel) (p : Page) : Writer → Prop
  | .fault _ => k.Ticketless p
  | .pgset => k.Ticketless p
  | .recallTicket id => (k.pages p).entry = some ⟨.recallTicket id, false⟩
  | .transfer id => (k.pages p).entry = some ⟨.transfer id, false⟩ ∧
    ∃ t record sv, k.transfers id = some t ∧ t.page = p ∧
      t.pc = .copying record (k.pages p).record sv
  | _ => False

def Kernel.ClaimsOwned (k : Kernel) : Prop :=
  ∀ p, (k.pages p).record.state = .claim → k.ClaimOwner p (k.pages p).wrote

variable {w : Writer} {id : Nat} {t : Transfer}

theorem Kernel.ClaimOwner.keep (owner : k.ClaimOwner p w)
    (record : (k'.pages p).record = (k.pages p).record)
    (entry : (k'.pages p).entry = (k.pages p).entry)
    (copying : ∀ id t record sv, k.transfers id = some t → t.page = p →
      t.pc = .copying record (k.pages p).record sv →
      ∃ t', k'.transfers id = some t' ∧ t'.page = p ∧ t'.pc = t.pc) : k'.ClaimOwner p w := by
  cases w with
  | recallTicket id =>
    simp only [ClaimOwner] at owner ⊢
    rw [entry, owner]
  | transfer id =>
    obtain ⟨reserved, t, before, sv, ticket, page, at_⟩ := owner
    obtain ⟨t', ticket', page', at'⟩ := copying id t before sv ticket page at_
    refine ⟨by rw [entry, reserved], t', before, sv, ticket', page', ?_⟩
    rw [at', at_, record]
  | fault | pgset =>
    simp only [ClaimOwner, Ticketless] at owner ⊢
    rw [entry]
    exact owner
  | _ => exact owner

/-- A claim on a page that no ticket holds is a fault's or `PGSET`'s. -/
theorem Kernel.ClaimOwner.ticketless (owner : k.ClaimOwner p w) (free : k.Ticketless p) :
    (∃ episode, w = .fault episode) ∨ w = .pgset := by
  cases w with
  | fault episode => exact .inl ⟨episode, rfl⟩
  | pgset => exact .inr rfl
  | recallTicket id =>
    simp only [ClaimOwner] at owner
    rcases free with unreserved | ⟨op, cancelled, guarded⟩
    · rw [unreserved] at owner
      cases owner
    · rw [guarded] at owner
      cases owner
  | transfer id =>
    obtain ⟨reserved, -⟩ := owner
    rcases free with unreserved | ⟨op, cancelled, guarded⟩
    · rw [unreserved] at reserved
      cases reserved
    · rw [guarded] at reserved
      cases reserved
  | _ => exact owner.elim

theorem Kernel.ClaimOwner.free (free : k.Ticketless p)
    (writer : (∃ episode, w = .fault episode) ∨ w = .pgset) : k.ClaimOwner p w := by
  rcases writer with ⟨episode, rfl⟩ | rfl <;> exact free

theorem captureOutcome_settled {state : PgState} {sv : Served} {copy : Copy} {gen : UInt32}
    (here : state = .home ∨ state = .none) :
    (captureOutcome state sv copy gen).1.state ≠ .claim := by
  cases copy <;> rcases here with rfl | rfl <;> simp [captureOutcome]

theorem other_claims_owned (good : k.Good) (stand : k.RecallsStand) (owned : k.ClaimsOwned)
    (other : a.ofTransfer = false) (transfers : k'.transfers = k.transfers)
    (ran : step k a = some (k', reply)) : k'.ClaimsOwned := by
  intro p claim
  have copying : ∀ id t record sv, k.transfers id = some t → t.page = p →
      t.pc = .copying record (k.pages p).record sv →
      ∃ t', k'.transfers id = some t' ∧ t'.page = p ∧ t'.pc = t.pc := by
    intro id t record sv ticket page at_
    exact ⟨t, by rw [transfers, ticket], page, rfl⟩
  cases step_moves good ran p with
  | quiet page =>
    obtain ⟨record, entry, wrote, -⟩ := PageState.core_eq.mp page
    rw [record] at claim
    rw [wrote]
    exact (owned p claim).keep record entry copying
  | erased _ page =>
    rw [(PageState.core_eq.mp page).1] at claim
    cases claim
  | wrote writes page =>
    obtain ⟨record, entry, wrote, -⟩ := PageState.core_eq.mp page
    rw [record] at claim
    rw [wrote]
    have free (unreserved : (k.pages p).entry = none) : k'.Ticketless p :=
      .inl (by rw [entry]; exact unreserved)
    cases writes with
    | claim _ unreserved | land _ _ _ unreserved | pgset unreserved => exact free unreserved
    | op | pgack => cases claim
    | _ => cases other
  | reserved unreserved by_ page =>
    obtain ⟨record, entry, wrote, -⟩ := PageState.core_eq.mp page
    rw [record] at claim
    rw [wrote]
    rcases by_ with ⟨op, nomem, -, same⟩ | ⟨id, nomem, guards, -⟩
    · rw [same] at entry
      exact .free (.inr ⟨op, false, entry⟩) ((owned p claim).ticketless (.inl unreserved))
    · rw [guards] at other
      cases other
  | released held by_ page =>
    obtain ⟨record, entry, wrote, -⟩ := PageState.core_eq.mp page
    rw [record] at claim
    rw [wrote]
    rcases by_ with ⟨op, -, same⟩ | ⟨own, -⟩
    · rw [same] at held
      obtain ⟨cancelled, reserved⟩ := good.agreed.entry held
      exact .free (.inl entry) ((owned p claim).ticketless (.inr ⟨op, cancelled, reserved⟩))
    · rw [other] at own
      cases own
  | recalled _ _ _ page =>
    obtain ⟨-, entry, wrote, -⟩ := PageState.core_eq.mp page
    rw [wrote]
    exact entry
  | @unlinked id t landed gen ticket here _ _ page =>
    subst here
    have recalled := stand id t ticket
    rw [(PageState.core_eq.mp page).1, (recalled.unlinked landed gen).2] at claim
    split at claim
    · split at claim
      · cases claim
      · rw [recalled.prior] at claim
        cases claim
    next erased =>
      rw [(recalled.erased erased).2] at claim
      cases claim

/-- A claim on a page that a transfer ticket holds is the ticket's own, which is copying under
it. -/
theorem Kernel.ClaimsOwned.under (owned : k.ClaimsOwned) (ticket : k.transfers id = some t)
    (guarded : t.guarded = true) (good : k.Good) (claim : (k.pages t.page).record.state = .claim) :
    (k.pages t.page).cancelled (.transfer id) = false ∧
      ∃ record sv, t.pc = .copying record (k.pages t.page).record sv := by
  obtain ⟨cancelled, reserved⟩ := good.agreed.entry (h := .transfer id) ⟨t, ticket, rfl, guarded⟩
  have held : ¬ k.Ticketless t.page := by simp [Ticketless, reserved]
  have owner := owned t.page claim
  cases writer : (k.pages t.page).wrote with
  | transfer other =>
    rw [writer] at owner
    obtain ⟨named, t', before, sv, found, -, at_⟩ := owner
    rw [reserved] at named
    cases named
    rw [ticket] at found
    cases found
    exact ⟨by simp [PageState.cancelled, reserved], before, sv, at_⟩
  | recallTicket other =>
    rw [writer, Kernel.ClaimOwner, reserved] at owner
    cases owner
  | fault | pgset =>
    rw [writer] at owner
    exact absurd owner held
  | _ =>
    rw [writer] at owner
    exact owner.elim

theorem changed_claim_owned {t' : Transfer} {s' : PageState} (good : k.Good) (owned : k.ClaimsOwned)
    (ticket : k.transfers id = some t) (change : Change k id t a t' s')
    (pages : k'.pages = update k.pages t.page s')
    (transfers : k'.transfers = update k.transfers id (some t'))
    (claim : s'.record.state = .claim) : k'.ClaimOwner t.page s'.wrote := by
  have formed := good.formed id t ticket
  have here : k'.pages t.page = s' := by rw [pages, update_self]
  -- A ticket that is not copying owns no claim, so a claim on its page keeps its owner.
  have keep (idle : ∀ record claim sv, t.pc ≠ .copying record claim sv)
      (record : s'.record = (k.pages t.page).record) (entry : s'.entry = (k.pages t.page).entry)
      (wrote : s'.wrote = (k.pages t.page).wrote) : k'.ClaimOwner t.page s'.wrote := by
    rw [record] at claim
    rw [wrote]
    refine (owned t.page claim).keep (by rw [here, record]) (by rw [here, entry]) ?_
    intro other t'' before sv found page at_
    have apart : other ≠ id := by
      rintro rfl
      rw [ticket] at found
      cases found
      exact idle _ _ _ at_
    exact ⟨t'', by rw [transfers, update_of_ne apart, found], page, rfl⟩
  cases change with
  | replied at_ | guardFails at_ | reads at_ | shareFails at_ | markMoved at_ | markFails at_
  | takeLost at_ | finishes at_ | readEnds at_ => exact keep (by simp [at_]) rfl rfl rfl
  | attempts waiting | offers waiting | settles waiting =>
    exact keep (by simp [waiting]) rfl rfl rfl
  | guards _ _ settled =>
    simp only [PageState.reserve] at claim
    simp [PgRec.inFlight, claim] at settled
  | @shareClaims nomem record sv at_ live =>
    have guarded := formed.capturing (by rw [at_]; rfl)
    have entry := good.agreed.entry_live (h := .transfer id) ⟨t, ticket, rfl, guarded⟩ live
    have found : k'.transfers id =
        some { t with pc := .copying record ⟨.claim, 0, record.gen⟩ sv } := by
      rw [transfers, update_self]
    exact ⟨by rw [here]; exact entry, _, record, sv, found, rfl, by rw [here]; rfl⟩
  | @shareLoses copy record standing sv errno at_ lost =>
    -- The claim is the ticket's own and stands uncancelled, so it was not lost.
    obtain ⟨live, before, sv', at'⟩ :=
      owned.under ticket (formed.capturing (by rw [at_]; rfl)) good claim
    rw [at_] at at'
    cases at'
    rcases lost with cancelled | moved
    · rw [live] at cancelled
      cases cancelled
    · exact absurd rfl moved
  | shareRestores at_ =>
    have sound := formed.sound
    rw [at_] at sound
    have stood := sound.1
    simp only [PageState.write] at claim
    simp [PgRec.inFlight, claim] at stood
  | shareWins | marks | acks => cases claim
  | @takes copy state sv at_ =>
    have sound := formed.sound
    rw [at_] at sound
    exact absurd claim (captureOutcome_settled sound)
  | drops at_ page =>
    subst page
    split at claim
    next guarded =>
      obtain ⟨-, before, sv, at'⟩ := owned.under ticket guarded good claim
      rw [at_] at at'
      cases at'
    next bare =>
      refine keep (by simp [at_]) ?_ ?_ ?_ <;> rw [if_neg bare]

theorem freed_claims_owned (good : k.Good) (owned : k.ClaimsOwned)
    (ticket : k.transfers id = some t) (idle : ∀ record claim sv, t.pc ≠ .copying record claim sv)
    (pages : k'.pages = if t.guarded then
      update k.pages t.page (k.pages t.page).release else k.pages)
    (transfers : k'.transfers = update k.transfers id none) : k'.ClaimsOwned := by
  intro p claim
  have copying : ∀ other s before sv, k.transfers other = some s → s.page = p →
      s.pc = .copying before (k.pages p).record sv →
      ∃ s', k'.transfers other = some s' ∧ s'.page = p ∧ s'.pc = s.pc := by
    intro other s before sv found page at_
    have apart : other ≠ id := by
      rintro rfl
      rw [ticket] at found
      cases found
      exact idle _ _ _ at_
    exact ⟨s, by rw [transfers, update_of_ne apart, found], page, rfl⟩
  cases guarded : t.guarded with
  | false =>
    rw [guarded, if_neg (by decide)] at pages
    rw [pages] at claim ⊢
    exact (owned p claim).keep (by rw [pages]) (by rw [pages]) copying
  | true =>
    rw [guarded, if_pos rfl] at pages
    by_cases here : p = t.page
    · subst here
      rw [pages, update_self] at claim
      obtain ⟨-, before, sv, at_⟩ := owned.under ticket guarded good claim
      exact absurd at_ (idle _ _ _)
    · have same : k'.pages p = k.pages p := by rw [pages, update_of_ne here]
      rw [same] at claim ⊢
      exact (owned p claim).keep (by rw [same]) (by rw [same]) copying

theorem step_claims_owned (good : k.Good) (stand : k.RecallsStand) (owned : k.ClaimsOwned)
    (ran : step k a = some (k', reply)) : k'.ClaimsOwned := by
  cases step_tickets ran with
  | untouched idle transfers =>
    rcases idle with other | same
    · exact other_claims_owned good stand owned other transfers ran
    · rw [same]
      exact owned
  | begun _ pages transfers =>
    intro p claim
    rw [pages] at claim ⊢
    refine (owned p claim).keep (by rw [pages]) (by rw [pages]) ?_
    intro id t before sv ticket page at_
    have apart : id ≠ k.transferNext + 1 := by
      rintro rfl
      rw [good.transferFresh _ (Nat.lt_succ_self _)] at ticket
      cases ticket
    exact ⟨t, by rw [transfers, update_of_ne apart, ticket], page, rfl⟩
  | @changed id t t' ticket s' change pages transfers =>
    intro p claim
    by_cases here : p = t.page
    · subst here
      rw [pages, update_self] at claim ⊢
      exact changed_claim_owned good owned ticket change pages transfers claim
    · have same : k'.pages p = k.pages p := by rw [pages, update_of_ne here]
      rw [same] at claim ⊢
      refine (owned p claim).keep (by rw [same]) (by rw [same]) ?_
      intro other s before sv found page at_
      have apart : other ≠ id := by
        rintro rfl
        rw [ticket] at found
        cases found
        exact here page.symm
      exact ⟨s, by rw [transfers, update_of_ne apart, found], page, rfl⟩
  | freed ticket spent pages transfers =>
    refine freed_claims_owned good owned ticket ?_ pages transfers
    intro record claim sv at_
    rw [at_] at spent
    rcases spent with replying | ⟨waiting, -⟩
    · cases replying
    · cases waiting
  | disposed ticket unlisted pages transfers =>
    refine freed_claims_owned good owned ticket ?_ pages transfers
    intro record claim sv at_
    rw [good.unlisted _ _ ticket unlisted] at at_
    cases at_
  | exited _ exits =>
    have pages : k'.pages = k.pages := by
      simp only [transferOwnerExit] at exits
      split at exits <;> cases exits
      rfl
    intro p claim
    rw [pages] at claim ⊢
    refine (owned p claim).keep (by rw [pages]) (by rw [pages]) ?_
    intro id t before sv ticket page at_
    obtain ⟨t', after⟩ := exit_keeps exits ticket
    obtain ⟨t'', poisoned, found, rfl⟩ := exit_tickets exits after
    rw [ticket] at found
    cases found
    exact ⟨_, after, page, rfl⟩

theorem Reached.claims_owned (reached : Reached k) : k.ClaimsOwned := by
  apply reached.invariant
  · intro before a after reply reached owned ran
    exact step_claims_owned reached.good reached.recalls_stand owned ran
  · intro memory pins traceId monTgid tgid p claim
    cases claim

end Vmctx.Custody
