import Vmctx.Custody.Invariant
/-!
# Recall tickets

A live recall ticket and its page stand in one of two relations. As long as the page was not erased
since `BEGIN`, the record is the claim `BEGIN` wrote and the reservation is in force; once it was
erased, the reservation is cancelled and the record is absent. Nothing but an erasure or the end of
the ticket changes the record, because every other writer of records needs the page unreserved or
reserved for itself. From this follows what `COMMIT`, `CANCEL` and an exit do, in any interleaving.
-/

namespace Vmctx.Custody

open Kernel Vmctx.System Function

variable {k k' : Kernel} {a : Act} {reply : Reply}

structure Recalled (s : PageState) (id : Nat) (t : RecallTicket) : Prop where
  prior : t.prior.state = .remote
  birth : t.birth ≤ s.erasures
  standing : s.erasures = t.birth → s.entry = some ⟨.recallTicket id, false⟩ ∧
    s.record = ⟨.claim, 0, t.prior.gen⟩
  erased : s.erasures ≠ t.birth → s.entry = some ⟨.recallTicket id, true⟩ ∧ s.record = .absent

def Kernel.RecallsStand (k : Kernel) : Prop :=
  ∀ id t, k.recalls id = some t → Recalled (k.pages t.page) id t

section Standing

variable {s : PageState} {id : Nat} {t : RecallTicket} {p : Page}

theorem Recalled.reserved (recalled : Recalled s id t) :
    ∃ cancelled, s.entry = some ⟨.recallTicket id, cancelled⟩ := by
  by_cases alive : s.erasures = t.birth
  · exact ⟨false, (recalled.standing alive).1⟩
  · exact ⟨true, (recalled.erased alive).1⟩

theorem Recalled.cancelled_iff (recalled : Recalled s id t) :
    s.cancelled (.recallTicket id) = true ↔ s.erasures ≠ t.birth := by
  by_cases alive : s.erasures = t.birth
  · simp [PageState.cancelled, (recalled.standing alive).1, alive]
  · simp [PageState.cancelled, (recalled.erased alive).1, alive]

theorem Writes.not_recalled {r : PgRec} {who : Writer} {cancelled : Bool}
    (writes : Writes k p a r who) : (k.pages p).entry ≠ some ⟨.recallTicket id, cancelled⟩ := by
  cases writes <;> simp_all

/-- A section ends a live ticket, leaves it alone, or takes its owner's request a step further. -/
theorem recall_evolves (good : k.Good) (ticket : k.recalls id = some t)
    (ran : step k a = some (k', reply)) :
    (k'.recalls id = none ∧
      ((a = .recallLand id ∧ ∃ gen bytes frame, t.pc = .pinned gen bytes frame) ∨
        (a = .recallConsume id ∧ ∃ result, t.pc = .consuming result) ∨
        (a = .recallExit t.owner id ∧ t.pc = .idle))) ∨
      k'.recalls id = some t ∨
      ∃ pc, RecallChange k id t a pc ∧ k'.recalls id = some { t with pc := pc } := by
  cases step_recalls ran with
  | untouched recalls =>
    rw [recalls]
    exact .inr (.inl ticket)
  | begun _ _ recalls =>
    have apart : id ≠ k.recallNext + 1 := by
      rintro rfl
      rw [good.recallFresh _ (Nat.lt_succ_self _)] at ticket
      cases ticket
    rw [recalls, update_of_ne apart]
    exact .inr (.inl ticket)
  | @changed other owned pc found change recalls =>
    rw [recalls, update_apply]
    split
    · next same =>
      subst same
      rw [ticket] at found
      cases found
      exact .inr (.inr ⟨pc, change, rfl⟩)
    · exact .inr (.inl ticket)
  | @ended other owned found by_ recalls =>
    rw [recalls, update_apply]
    split
    · next same =>
      subst same
      rw [ticket] at found
      cases found
      exact .inl ⟨rfl, by_⟩
    · exact .inr (.inl ticket)

theorem recalled_page (good : k.Good) (ticket : k.recalls id = some t)
    (recalled : Recalled (k.pages t.page) id t) (ran : step k a = some (k', reply)) :
    (k'.pages t.page).core = (k.pages t.page).core ∨
      (a.erases t.page ∧ (k'.pages t.page).core = (k.pages t.page).erase.core) ∨
      (k'.recalls id = none ∧
        (a = .recallLand id ∨ a = .recallConsume id ∨ ∃ who, a = .recallExit who id)) := by
  obtain ⟨cancelled, entry⟩ := recalled.reserved
  have named : k.table t.page = some (.recallTicket id) := by simp [table, entry]
  cases step_moves good ran t.page with
  | quiet page => exact .inl page
  | erased inRange page => exact .inr (.inl ⟨inRange, page⟩)
  | wrote writes => exact absurd entry writes.not_recalled
  | reserved unreserved | recalled _ unreserved =>
    rw [unreserved] at entry
    cases entry
  | released held by_ =>
    rw [← good.agreed, named, Option.some.injEq] at held
    rcases by_ with ⟨op, -, same⟩ | ⟨-, op, same⟩
    · rw [same] at held
      cases held
    · rw [same] at held
      cases held
  | @unlinked other _ _ _ found here by_ _ _ holding =>
    have same : other = id := by
      have owns : k.Holds (.recallTicket other) t.page := ⟨_, found, here⟩
      rw [← good.agreed, named, Option.some.injEq, Holder.recallTicket.injEq] at owns
      exact owns.symm
    subst same
    refine .inr (.inr ⟨?_, by_⟩)
    rcases recall_evolves good ticket ran with ⟨gone, -⟩ | same | ⟨pc, -, changed⟩
    · exact gone
    · exact absurd rfl ((holding (.recallTicket other)).mp ⟨t, same, rfl⟩).2
    · exact absurd rfl ((holding (.recallTicket other)).mp ⟨_, changed, rfl⟩).2

theorem erases_page (inRange : a.erases p) (ran : step k a = some (k', reply)) :
    k'.pages p = (k.pages p).erase := by
  cases a <;> try exact inRange.elim
  cases ran
  exact if_pos inRange

theorem step_erasures (good : k.Good) (ran : step k a = some (k', reply))
    (unerased : ¬ a.erases p) : (k'.pages p).erasures = (k.pages p).erasures := by
  cases step_moves good ran p with
  | quiet page | wrote _ page | reserved _ _ page | released _ _ page | recalled _ _ _ page =>
    exact (PageState.core_eq.mp page).2.2.2
  | erased inRange => exact absurd inRange unerased
  | unlinked _ _ _ _ page =>
    rw [(PageState.core_eq.mp page).2.2.2]
    unfold recallUnlinkPage
    split <;> rfl

theorem recalled_next (good : k.Good) (ticket : k.recalls id = some t)
    (recalled : Recalled (k.pages t.page) id t) (ran : step k a = some (k', reply))
    {pc : RecallPc} (after : k'.recalls id = some { t with pc := pc }) :
    Recalled (k'.pages t.page) id { t with pc := pc } := by
  rcases recalled_page good ticket recalled ran with same | ⟨-, page⟩ | ⟨gone, -⟩
  · obtain ⟨record, entry, -, erasures⟩ := PageState.core_eq.mp same
    constructor
    · exact recalled.prior
    · rw [erasures]
      exact recalled.birth
    · rw [erasures, entry, record]
      exact recalled.standing
    · rw [erasures, entry, record]
      exact recalled.erased
  · obtain ⟨record, entry, -, erasures⟩ := PageState.core_eq.mp page
    have later := recalled.birth
    have counted : (k'.pages t.page).erasures = (k.pages t.page).erasures + 1 := erasures
    obtain ⟨cancelled, reserved⟩ := recalled.reserved
    constructor
    · exact recalled.prior
    · change t.birth ≤ _
      omega
    · intro alive
      change _ = t.birth at alive
      omega
    · intro _
      rw [entry, record]
      simp [PageState.erase, reserved]
  · rw [gone] at after
    cases after

theorem recalled_begun {who : Nat} {vma nomem : Bool} (good : k.Good)
    (begins : a = .recallBegin who p vma nomem) (lent : (k.pages p).record.state = .remote)
    (recalls : k'.recalls = update k.recalls (k.recallNext + 1)
      (some ⟨p, who, (k.pages p).record, .idle, (k.pages p).erasures⟩))
    (ran : step k a = some (k', reply)) :
    Recalled (k'.pages p) (k.recallNext + 1)
      ⟨p, who, (k.pages p).record, .idle, (k.pages p).erasures⟩ := by
  have holds : k'.Holds (.recallTicket (k.recallNext + 1)) p := by
    refine ⟨⟨p, who, (k.pages p).record, .idle, (k.pages p).erasures⟩, ?_, rfl⟩
    rw [recalls, update_self]
  have fresh : ¬ k.Holds (.recallTicket (k.recallNext + 1)) p := by
    rintro ⟨t, found, -⟩
    rw [good.recallFresh _ (Nat.lt_succ_self _)] at found
    cases found
  subst begins
  cases step_moves good ran p with
  | quiet _ holding => exact absurd ((holding _).mp holds) fresh
  | erased inRange => exact inRange.elim
  | wrote writes => cases writes
  | reserved _ by_ | unlinked _ _ by_ => simp at by_
  | released _ _ _ holding => exact absurd ((holding _).mp holds).1 fresh
  | recalled _ _ _ page =>
    obtain ⟨record, entry, -, erasures⟩ := PageState.core_eq.mp page
    have counted : (k'.pages p).erasures = (k.pages p).erasures := erasures
    constructor
    · exact lent
    · exact Nat.le_of_eq counted.symm
    · intro _
      rw [entry, record]
      exact ⟨rfl, rfl⟩
    · intro later
      exact absurd counted later

theorem step_recalls_stand (good : k.Good) (stand : k.RecallsStand)
    (ran : step k a = some (k', reply)) : k'.RecallsStand := by
  intro id t' after
  cases before : k.recalls id with
  | none =>
    -- A new ticket: its page was lent and unreserved, so `BEGIN` claimed it.
    cases step_recalls ran with
    | untouched recalls =>
      rw [recalls, before] at after
      cases after
    | begun begins lent recalls =>
      rw [recalls, update_apply] at after
      split at after
      · next fresh =>
        cases after
        subst fresh
        exact recalled_begun good begins lent recalls ran
      · rw [before] at after
        cases after
    | changed ticket _ recalls =>
      rw [recalls, update_apply] at after
      split at after
      · next same =>
        rw [← same, before] at ticket
        cases ticket
      · rw [before] at after
        cases after
    | ended _ _ recalls =>
      rw [recalls, update_apply] at after
      split at after
      · cases after
      · rw [before] at after
        cases after
  | some t =>
    have recalled := stand id t before
    rcases recall_evolves good before ran with ⟨gone, -⟩ | same | ⟨pc, -, changed⟩
    · rw [gone] at after
      cases after
    · have unchanged : t' = t := by
        rw [same] at after
        exact (Option.some.inj after).symm
      rw [unchanged]
      have kept : k'.recalls id = some { t with pc := t.pc } := same
      exact recalled_next good before recalled ran kept
    · rw [changed] at after
      cases after
      exact recalled_next good before recalled ran changed

end Standing

theorem Reached.recalls_stand (reached : Reached k) : k.RecallsStand := by
  apply reached.invariant
  · intro before a after reply reached stand ran
    exact step_recalls_stand reached.good stand ran
  · intro memory pins traceId monTgid tgid id t ticket
    cases ticket

/-- The page of a ticket after it is unlinked: the claim becomes `HOME` or the record `BEGIN` saw,
unless the page was erased. -/
theorem Recalled.unlinked {s : PageState} {id : Nat} {t : RecallTicket} (recalled : Recalled s id t)
    (landed : Bool) (gen : UInt32) :
    (recallUnlinkPage s id t.prior landed gen).entry = none ∧
      (recallUnlinkPage s id t.prior landed gen).record =
        if s.erasures = t.birth then (if landed then ⟨.home, 0, gen⟩ else t.prior)
        else s.record := by
  have cancelled := recalled.cancelled_iff
  by_cases alive : s.erasures = t.birth
  · have live : s.cancelled (.recallTicket id) = false := by
      rw [← Bool.not_eq_true, cancelled]
      exact absurd alive
    have claim : s.record.state = .claim := by rw [(recalled.standing alive).2]
    simp [recallUnlinkPage, live, claim, alive, PageState.release, PageState.write]
  · have gone : s.cancelled (.recallTicket id) = true := cancelled.mpr alive
    simp [recallUnlinkPage, gone, alive, PageState.release]

def Kernel.Unerased (k : Kernel) (t : RecallTicket) : Prop :=
  (k.pages t.page).erasures = t.birth

instance (k : Kernel) (t : RecallTicket) : Decidable (k.Unerased t) :=
  inferInstanceAs (Decidable (_ = _))

/-- The contract of recall tickets in one state, for every section that may run there. -/
structure Kernel.RecallContract (k : Kernel) : Prop where
  /-- A page has one reservation at most, the one the table names. -/
  single : ∀ p h h', k.Holds h p → k.Holds h' p → h = h' ∧ k.table p = some h
  /-- `BEGIN` remembers the record it saw, which says `REMOTE`, and claims the page. -/
  begins : ∀ who p vma nomem k' id,
    step k (.recallBegin who p vma nomem) = some (k', .ticket id) →
      k.recalls id = none ∧ (k.pages p).record.state = .remote ∧
      k'.recalls id = some ⟨p, who, (k.pages p).record, .idle, (k.pages p).erasures⟩ ∧
      (k'.pages p).record = ⟨.claim, 0, (k.pages p).record.gen⟩ ∧
      k'.table p = some (.recallTicket id)
  /-- A request of another thread or for another address is refused and changes nothing. -/
  refused : ∀ id t who idx op, k.recalls id = some t → t.owner ≠ who ∨ t.page.idx ≠ idx →
    step k (.recallFinish who id idx op) = some (k, .failed .ENOENT) ∨
      step k (.recallFinish who id idx op) = some (k, .failed .EINVAL)
  /-- A ticket keeps everything but its owner's progress, which only the owner's own request, its
  further sections and the owner's exit change. -/
  owned : ∀ a k' reply id t, step k a = some (k', reply) → k.recalls id = some t →
    k'.recalls id = some t ∨
    (t.pc = .idle ∧ ∃ pc idx op, a = .recallFinish t.owner id idx op ∧ t.page.idx = idx ∧
      k'.recalls id = some { t with pc := pc }) ∨
    (t.pc ≠ .idle ∧ ∃ pc gup, a = .recallPin id gup ∧ k'.recalls id = some { t with pc := pc }) ∨
    (k'.recalls id = none ∧ ((t.pc = .idle ∧ a = .recallExit t.owner id) ∨
      (t.pc ≠ .idle ∧ (a = .recallLand id ∨ a = .recallConsume id))))
  /-- A ticket that is consumed stays so. -/
  once : ∀ id k', id ≤ k.recallNext → k.recalls id = none → Reach Step k k' →
    k'.recalls id = none
  /-- The frame that a `COMMIT` pins is then mapped at its page. -/
  pins : ∀ id t gup k' reply gen bytes frame, k.recalls id = some t →
    step k (.recallPin id gup) = some (k', reply) →
    k'.recalls id = some { t with pc := .pinned gen bytes frame } →
    (k'.pages t.page).frame = some frame
  /-- The end of a `COMMIT` writes the bytes and lands the claim, if the page was not erased;
  otherwise it fails and changes neither. -/
  commit : ∀ id t gen bytes frame, k.recalls id = some t → t.pc = .pinned gen bytes frame →
    ∃ k', k'.recalls id = none ∧ (k'.pages t.page).entry = none ∧
      if k.Unerased t then
        step k (.recallLand id) = some (k', .wrote) ∧
        k'.memory = update k.memory frame bytes ∧
        (k.pages t.page).record = ⟨.claim, 0, t.prior.gen⟩ ∧
        (k'.pages t.page).record = ⟨.home, 0, gen⟩
      else
        step k (.recallLand id) = some (k', .failed .ESTALE) ∧
        k'.memory = k.memory ∧ (k'.pages t.page).record = (k.pages t.page).record
  /-- A `CANCEL` and a failed `COMMIT` restore the record `BEGIN` saw, if the page was not
  erased. -/
  restore : ∀ id t result, k.recalls id = some t → t.pc = .consuming result →
    ∃ k', k'.recalls id = none ∧ (k'.pages t.page).entry = none ∧ k'.memory = k.memory ∧
      if k.Unerased t then
        step k (.recallConsume id) = some (k', match result with
          | none => .ok
          | some errno => .failed errno) ∧
        (k'.pages t.page).record = t.prior
      else
        step k (.recallConsume id) = some (k', .failed .ESTALE) ∧
        (k'.pages t.page).record = (k.pages t.page).record
  /-- The exit of its owner restores the record like a `CANCEL`. -/
  exit : ∀ id t, k.recalls id = some t → t.pc = .idle →
    ∃ k', step k (.recallExit t.owner id) = some (k', .ok) ∧ k'.recalls id = none ∧
      (k'.pages t.page).entry = none ∧ k'.memory = k.memory ∧
      (k'.pages t.page).record = if k.Unerased t then t.prior else (k.pages t.page).record
  /-- While a ticket lives, its page's record changes only when the page is erased. -/
  undisturbed : ∀ a k' reply id t, step k a = some (k', reply) → k.recalls id = some t →
    k'.recalls id ≠ none → (k'.pages t.page).record ≠ (k.pages t.page).record → a.erases t.page

theorem recall_spent {id : Nat} (spent : id ≤ k.recallNext) (gone : k.recalls id = none)
    (run : Reach Step k k') : k'.recalls id = none := by
  have keeps : ∀ before label after, id ≤ before.recallNext ∧ before.recalls id = none →
      Step before label after → id ≤ after.recallNext ∧ after.recalls id = none := by
    rintro before label after ⟨spent, gone⟩ next
    obtain ⟨reply, ran⟩ := Step.ran next
    cases step_recalls ran with
    | untouched recalls next => exact ⟨by omega, by rw [recalls, gone]⟩
    | begun _ _ recalls next =>
      refine ⟨by omega, ?_⟩
      rw [recalls, update_of_ne (by omega), gone]
    | changed ticket _ recalls next =>
      refine ⟨by omega, ?_⟩
      rw [recalls, update_apply]
      split
      · next same =>
        rw [← same, gone] at ticket
        cases ticket
      · exact gone
    | ended _ _ recalls next =>
      refine ⟨by omega, ?_⟩
      rw [recalls, update_apply]
      split
      · rfl
      · exact gone
  exact (run.invariant keeps ⟨spent, gone⟩).2

theorem recallBegin_spec {who id : Nat} {p : Page} {vma nomem : Bool}
    (ran : k.recallBegin who p vma nomem = some (k', .ticket id)) :
    id = k.recallNext + 1 ∧ (k.pages p).record.state = .remote ∧
      k'.recalls id = some ⟨p, who, (k.pages p).record, .idle, (k.pages p).erasures⟩ ∧
      (k'.pages p).record = ⟨.claim, 0, (k.pages p).record.gen⟩ ∧
      k'.table p = some (.recallTicket id) := by
  simp only [recallBegin] at ran
  split at ran
  · cases ran
  split at ran
  · cases ran
  split at ran
  · cases ran
  next lent =>
  rw [ne_eq, not_not] at lent
  split at ran
  · cases ran
  split at ran
  · cases ran
  split at ran <;> cases ran
  exact ⟨rfl, lent, by simp, by simp [PageState.write],
    by simp [table, PageState.write, PageState.reserve]⟩

theorem recallFinish_refused {id who idx : Nat} {t : RecallTicket} {op : RecallOp}
    (ticket : k.recalls id = some t) (wrong : t.owner ≠ who ∨ t.page.idx ≠ idx) :
    k.recallFinish who id idx op = some (k, .failed .ENOENT) ∨
      k.recallFinish who id idx op = some (k, .failed .EINVAL) := by
  by_cases zero : id = 0
  · right
    simp [recallFinish, zero]
  by_cases other : t.owner = who
  · right
    have named := wrong.resolve_left (by simpa using other)
    simp [recallFinish, zero, ticket, other, named]
  · left
    simp [recallFinish, zero, ticket, other]

theorem recallLand_spec {id frame : Nat} {t : RecallTicket} {gen : UInt32} {bytes : PageBytes}
    (recalled : Recalled (k.pages t.page) id t) (ticket : k.recalls id = some t)
    (at_ : t.pc = .pinned gen bytes frame) :
    k.recallLand id = if k.Unerased t then
        some ({ k with memory := update k.memory frame bytes }.recallUnlink id t true gen,
          .wrote)
      else some (k.recallUnlink id t false gen, .failed .ESTALE) := by
  by_cases alive : k.Unerased t
  · have live : (k.pages t.page).cancelled (.recallTicket id) = false := by
      rw [← Bool.not_eq_true, recalled.cancelled_iff]
      exact absurd alive
    have claim : (k.pages t.page).record.state = .claim := by rw [(recalled.standing alive).2]
    simp [recallLand, ticket, at_, live, claim, alive]
  · have gone : (k.pages t.page).cancelled (.recallTicket id) = true :=
      recalled.cancelled_iff.mpr alive
    simp [recallLand, ticket, at_, gone, alive]

theorem recallUnlink_spec {id : Nat} {t : RecallTicket} (recalled : Recalled (k.pages t.page) id t)
    (landed : Bool) (gen : UInt32) :
    (k.recallUnlink id t landed gen).recalls id = none ∧
      ((k.recallUnlink id t landed gen).pages t.page).entry = none ∧
      (k.recallUnlink id t landed gen).memory = k.memory ∧
      ((k.recallUnlink id t landed gen).pages t.page).record =
        if k.Unerased t then (if landed then ⟨.home, 0, gen⟩ else t.prior)
        else (k.pages t.page).record := by
  obtain ⟨entry, record⟩ := recalled.unlinked landed gen
  refine ⟨by simp [recallUnlink], ?_, rfl, ?_⟩
  · simpa [recallUnlink] using entry
  · simp only [recallUnlink, unpin_pages, setRecall_pages, setPage_pages, update_self]
    exact record

end Vmctx.Custody
