import Vmctx.Custody.Writers
/-!
# Claims of faults

A fault writes `CLAIM`, waits for its monitor and settles by turning `CLAIM` into `HOME` or back.
The settlement recognises its claim by the state alone and is skipped on a reserved page.

The first has the consequence that a fault whose claim was erased settles the claim another fault
wrote meanwhile; it settles only its own when no claim is written on a page with an unsettled fault.
The second has the consequence that a claim stays behind when the fault settles while a local
operation holds its page and the operation then ends without writing the record; no claim stays
behind when no fault settles under a local operation.
-/

namespace Vmctx.Custody

open Kernel Vmctx.System Function

variable {k k' : Kernel} {a : Act} {reply : Reply} {p : Page}

def Kernel.Unsettled (k : Kernel) (p : Page) : Prop :=
  ∃ task fault, k.faults task = some fault ∧ fault.claimed = true ∧ fault.page = p

def Kernel.Claimable (k : Kernel) (p : Page) : Prop :=
  (k.pages p).entry = none ∧ (k.pages p).record.inFlight = false

def Kernel.PriorsSettled (k : Kernel) : Prop :=
  ∀ task fault, k.faults task = some fault → fault.claimed = true →
    fault.prior ≠ .claim ∧ fault.prior ≠ .transit

theorem step_priors_settled (priors : k.PriorsSettled) (ran : step k a = some (k', reply)) :
    k'.PriorsSettled := by
  intro task fault outstanding claimed
  cases step_faults ran with
  | untouched _ faults =>
    rw [faults] at outstanding
    exact priors task fault outstanding claimed
  | claimed _ _ _ quiet _ faults =>
    rw [faults, update_apply] at outstanding
    split at outstanding
    · cases outstanding
      simpa [PgRec.inFlight] using quiet
    · exact priors task fault outstanding claimed
  | parked _ _ _ faults =>
    rw [faults, update_apply] at outstanding
    split at outstanding
    · cases outstanding
      cases claimed
    · exact priors task fault outstanding claimed
  | settled _ _ faults =>
    rw [faults, update_apply] at outstanding
    split at outstanding
    · cases outstanding
    · exact priors task fault outstanding claimed

theorem Reached.priors_settled (reached : Reached k) : k.PriorsSettled := by
  apply reached.invariant
  · intro before a after reply _ priors ran
    exact step_priors_settled priors ran
  · intro memory pins traceId monTgid tgid task fault outstanding
    cases outstanding

variable {action : Action} {fault : Fault} {task : Nat}

theorem landTo_settled (prior : fault.prior ≠ .claim) : landTo fault action ≠ .claim := by
  cases action <;> simp [landTo, prior]

/-- What a settlement does: it writes when the fault claimed, the page is unreserved and the record
says `CLAIM`, and changes no page otherwise. -/
theorem pgrecLand_spec (ran : step k (.land task action) = some (k', reply))
    (outstanding : k.faults task = some fault) :
    if fault.claimed = true ∧ (k.pages fault.page).entry = none ∧
        (k.pages fault.page).record.state = .claim then
      k'.pages = update k.pages fault.page ((k.pages fault.page).write
        ⟨landTo fault action, 0, (k.pages fault.page).record.gen⟩ (.fault fault.episode))
    else k'.pages = k.pages := by
  simp only [step, pgrecLand, outstanding] at ran
  split at ran <;> cases ran
  next skipped =>
    rw [if_neg]
    · rfl
    · rintro ⟨claimed, unreserved, claim⟩
      simp [claimed, unreserved, claim] at skipped
  next settles =>
    rw [if_pos]
    · rfl
    · simpa [not_or] using settles

/-! ## A fault settles its own claim -/

/-- The condition: no claim is written on a page that has an unsettled fault. -/
def ClaimsInTurn (k : Kernel) : Act → Prop
  | .claim _ p _ _ => k.Claimable p → ¬ k.Unsettled p
  | .pgset p .claim _ _ => k.Claimable p → ¬ k.Unsettled p
  | _ => True

/-- A claim on a page with an unsettled fault is the fault's, unless a ticket wrote it. -/
def Kernel.Answered (k : Kernel) : Prop :=
  ∀ task fault, k.faults task = some fault → fault.claimed = true →
    (k.pages fault.page).record.state = .claim →
    (k.pages fault.page).wrote = .fault fault.episode ∨
      (∃ id, (k.pages fault.page).wrote = .recallTicket id) ∨
      ∃ id, (k.pages fault.page).wrote = .transfer id

/-- A claim that a section finds on the page of an unsettled fault was there before, or a ticket
wrote it. -/
theorem claim_stays (good : k.Good) (priors : k.PriorsSettled) (turn : ClaimsInTurn k a)
    (ran : step k a = some (k', reply)) (outstanding : k.faults task = some fault)
    (claimed : fault.claimed = true) (claim : (k'.pages fault.page).record.state = .claim) :
    ((k.pages fault.page).record.state = .claim ∧
      (k'.pages fault.page).wrote = (k.pages fault.page).wrote) ∨
      (∃ id, (k'.pages fault.page).wrote = .recallTicket id) ∨
      ∃ id, (k'.pages fault.page).wrote = .transfer id := by
  have waiting : k.Unsettled fault.page := ⟨task, fault, outstanding, claimed, rfl⟩
  cases step_moves good ran fault.page with
  | quiet page | reserved _ _ page | released _ _ page =>
    obtain ⟨record, -, wrote, -⟩ := PageState.core_eq.mp page
    rw [record] at claim
    exact .inl ⟨claim, wrote⟩
  | erased _ page =>
    rw [(PageState.core_eq.mp page).1] at claim
    cases claim
  | wrote writes page =>
    obtain ⟨record, -, wrote, -⟩ := PageState.core_eq.mp page
    rw [record] at claim
    rw [wrote]
    cases writes with
    | claim _ unreserved quiet => exact absurd waiting (turn ⟨unreserved, quiet⟩)
    | land outstanding' _ claimed' =>
      exact absurd claim (landTo_settled (priors _ _ outstanding' claimed').1)
    | op | pgack => cases claim
    | pgset unreserved quiet =>
      cases claim
      exact absurd waiting (turn ⟨unreserved, quiet rfl⟩)
    | _ => exact .inr (.inr ⟨_, rfl⟩)
  | recalled _ _ _ page =>
    rw [(PageState.core_eq.mp page).2.2.1]
    exact .inr (.inl ⟨_, rfl⟩)
  | unlinked _ _ _ _ page =>
    obtain ⟨record, -, wrote, -⟩ := PageState.core_eq.mp page
    rw [record] at claim
    rw [wrote]
    unfold recallUnlinkPage at claim ⊢
    split at claim
    next own =>
      rw [if_pos own]
      exact .inr (.inl ⟨_, rfl⟩)
    next other =>
      rw [if_neg other]
      exact .inl ⟨claim, rfl⟩

theorem step_answered (good : k.Good) (priors : k.PriorsSettled) (turn : ClaimsInTurn k a)
    (answered : k.Answered) (ran : step k a = some (k', reply)) : k'.Answered := by
  intro task fault outstanding claimed claim
  have before (outstanding : k.faults task = some fault) :
      (k'.pages fault.page).wrote = .fault fault.episode ∨
        (∃ id, (k'.pages fault.page).wrote = .recallTicket id) ∨
        ∃ id, (k'.pages fault.page).wrote = .transfer id := by
    rcases claim_stays good priors turn ran outstanding claimed claim with ⟨stood, same⟩ | ticket
    · rw [same]
      exact answered task fault outstanding claimed stood
    · exact .inr ticket
  cases step_faults ran with
  | untouched _ faults =>
    rw [faults] at outstanding
    exact before outstanding
  | claimed _ _ _ _ page faults =>
    rw [faults, update_apply] at outstanding
    split at outstanding
    · cases outstanding
      rw [page, update_self]
      exact .inl rfl
    · exact before outstanding
  | parked _ _ _ faults =>
    rw [faults, update_apply] at outstanding
    split at outstanding
    · cases outstanding
      cases claimed
    · exact before outstanding
  | settled _ _ faults =>
    rw [faults, update_apply] at outstanding
    split at outstanding
    · cases outstanding
    · exact before outstanding

/-- A settlement changes a record only if the claim there is the one its fault wrote, in every run
in which no claim is written on a page with an unsettled fault. -/
theorem land_settles_own_claim {task : Nat} {action : Action} {fault : Fault}
    (run : ReachedWhen ClaimsInTurn k) (ran : step k (.land task action) = some (k', reply))
    (outstanding : k.faults task = some fault) (changed : k'.pages p ≠ k.pages p) :
    p = fault.page ∧ fault.claimed = true ∧ (k.pages p).record.state = .claim ∧
      (k.pages p).wrote = .fault fault.episode := by
  have reached := run.reached
  have answered : k.Answered := by
    apply run.invariant
    · intro before a after reply reached turn answered ran
      exact step_answered reached.good reached.priors_settled turn answered ran
    · intro memory pins traceId monTgid tgid task fault outstanding
      cases outstanding
  have spec := pgrecLand_spec ran outstanding
  split at spec
  next settles =>
    obtain ⟨claimed, unreserved, claim⟩ := settles
    have here : p = fault.page := by
      by_contra apart
      rw [spec, update_of_ne apart] at changed
      exact changed rfl
    subst here
    refine ⟨rfl, claimed, claim, ?_⟩
    -- An unreserved claim is no ticket's, so it is the fault's own.
    have writer := (reached.claims_owned fault.page claim).ticketless (.inl unreserved)
    rcases answered task fault outstanding claimed claim with own | ⟨id, ticket⟩ | ⟨id, ticket⟩
    · exact own
    · rw [ticket] at writer
      simp at writer
    · rw [ticket] at writer
      simp at writer
  next =>
    rw [spec] at changed
    exact absurd rfl changed

/-- A landing whose page was erased and claimed again settles the later claim. -/
theorem stale_land_settles_next_claim :
    ∃ k, Reached k ∧ (k.faults 1).map (fun f => (f.page, f.episode)) = some (⟨0, 5⟩, 1) ∧
      (k.pages ⟨0, 5⟩).record.state = .claim ∧ (k.pages ⟨0, 5⟩).wrote = .fault 2 ∧
      (next k (.land 1 .done)).map (fun k' => (k'.pages ⟨0, 5⟩).record.state) = some .home := by
  have ran : (exec next Kernel.boot
      [.claim 1 ⟨0, 5⟩ true false, .erase 0 5 5, .claim 2 ⟨0, 5⟩ true false]).any
      (fun k => decide ((k.faults 1).map (fun f => (f.page, f.episode)) = some (⟨0, 5⟩, 1) ∧
        (k.pages ⟨0, 5⟩).record.state = .claim ∧ (k.pages ⟨0, 5⟩).wrote = .fault 2 ∧
        (next k (.land 1 .done)).map (fun k' => (k'.pages ⟨0, 5⟩).record.state) =
          some .home)) = true := by decide
  obtain ⟨k, reached, found⟩ := Reached.exhibits ran
  exact ⟨k, reached, of_decide_eq_true found⟩

/-- A task faults on a page, and its landing brings the page home. -/
theorem land_settles_own_claim_alone :
    ∃ k k' reply, ReachedWhen ClaimsInTurn k ∧ step k (.land 1 .done) = some (k', reply) ∧
      (k'.pages ⟨0, 5⟩).record.state = .home ∧ (k.pages ⟨0, 5⟩).wrote = .fault 1 := by
  let k := (next Kernel.boot (.claim 1 ⟨0, 5⟩ true false)).get (by decide)
  have run : ReachedWhen ClaimsInTurn k := by
    refine ⟨_, _, _, _, _, .step .refl ⟨?_, (Option.some_get _).symm⟩⟩
    rintro - ⟨task, fault, outstanding, -⟩
    cases outstanding
  have settled : step k (.land 1 .done) = some (_, .ok) := rfl
  have outstanding : k.faults 1 = some ⟨⟨0, 5⟩, true, .none, 1⟩ := rfl
  have own := land_settles_own_claim (p := ⟨0, 5⟩) run settled outstanding (by decide)
  exact ⟨k, _, _, run, settled, by decide, own.2.2.2⟩

/-! ## No claim outlives its owner -/

def SettlesUnheld (k : Kernel) : Act → Prop
  | .land task _ => ∀ fault, k.faults task = some fault → fault.claimed = true →
    (k.pages fault.page).record.state = .claim → ∀ op, k.table fault.page ≠ some (.guard op)
  | _ => True

def Kernel.Awaited (k : Kernel) : Prop :=
  ∀ p episode, (k.pages p).record.state = .claim → (k.pages p).wrote = .fault episode →
    ∃ task fault, k.faults task = some fault ∧ fault.claimed = true ∧ fault.page = p ∧
      fault.episode = episode

theorem claim_of_fault_stays {episode : Nat} (good : k.Good) (other : a.ofFault = false)
    (ran : step k a = some (k', reply)) (claim : (k'.pages p).record.state = .claim)
    (wrote : (k'.pages p).wrote = .fault episode) :
    (k.pages p).record.state = .claim ∧ (k.pages p).wrote = .fault episode := by
  cases step_moves good ran p with
  | quiet page | reserved _ _ page | released _ _ page =>
    obtain ⟨record, -, writer, -⟩ := PageState.core_eq.mp page
    rw [record] at claim
    rw [writer] at wrote
    exact ⟨claim, wrote⟩
  | erased _ page =>
    rw [(PageState.core_eq.mp page).1] at claim
    cases claim
  | wrote writes page =>
    rw [(PageState.core_eq.mp page).2.2.1] at wrote
    cases writes with
    | claim | land => cases other
    | _ => cases wrote
  | recalled _ _ _ page =>
    rw [(PageState.core_eq.mp page).2.2.1] at wrote
    cases wrote
  | unlinked _ _ _ _ page =>
    obtain ⟨record, -, writer, -⟩ := PageState.core_eq.mp page
    rw [record] at claim
    rw [writer] at wrote
    unfold recallUnlinkPage at claim wrote
    split at claim
    next own =>
      rw [if_pos own] at wrote
      cases wrote
    next free =>
      rw [if_neg free] at wrote
      exact ⟨claim, wrote⟩

theorem step_awaited (good : k.Good) (owned : k.ClaimsOwned) (priors : k.PriorsSettled)
    (unheld : SettlesUnheld k a) (awaited : k.Awaited) (ran : step k a = some (k', reply)) :
    k'.Awaited := by
  intro p episode claim wrote
  cases step_faults ran with
  | untouched idle faults =>
    rcases idle with other | same
    · obtain ⟨stood, writer⟩ := claim_of_fault_stays good other ran claim wrote
      rw [faults]
      exact awaited p episode stood writer
    · rw [same] at claim wrote ⊢
      exact awaited p episode claim wrote
  | @claimed task q _ _ _ idle _ _ page faults =>
    by_cases here : p = q
    · subst here
      rw [page, update_self] at wrote
      cases wrote
      exact ⟨task, _, by rw [faults, update_self], rfl, rfl, rfl⟩
    · rw [page, update_of_ne here] at claim wrote
      obtain ⟨other, fault, outstanding, rest⟩ := awaited p episode claim wrote
      have apart : other ≠ task := by
        rintro rfl
        rw [idle] at outstanding
        cases outstanding
      exact ⟨other, fault, by rw [faults, update_of_ne apart, outstanding], rest⟩
  | @parked task _ _ _ _ _ idle pages faults =>
    rw [pages] at claim wrote
    obtain ⟨other, fault, outstanding, rest⟩ := awaited p episode claim wrote
    have apart : other ≠ task := by
      rintro rfl
      rw [idle] at outstanding
      cases outstanding
    exact ⟨other, fault, by rw [faults, update_of_ne apart, outstanding], rest⟩
  | @settled task action fault settles outstanding faults =>
    subst settles
    have spec := pgrecLand_spec ran outstanding
    split at spec
    next writes =>
      -- The settled page is no longer claimed; the others are other faults'.
      by_cases here : p = fault.page
      · subst here
        rw [spec, update_self] at claim
        exact absurd claim (landTo_settled (priors task fault outstanding writes.1).1)
      · rw [spec, update_of_ne here] at claim wrote
        obtain ⟨other, fault', outstanding', claimed, page, same⟩ :=
          awaited p episode claim wrote
        have apart : other ≠ task := by
          rintro rfl
          rw [outstanding] at outstanding'
          cases outstanding'
          exact here page.symm
        exact ⟨other, fault', by rw [faults, update_of_ne apart, outstanding'], claimed,
          page, same⟩
    next skipped =>
      -- A skipped settlement is not of this claim: the page is under no ticket and no operation.
      rw [spec] at claim wrote
      obtain ⟨other, fault', outstanding', claimed, page, same⟩ := awaited p episode claim wrote
      have apart : other ≠ task := by
        rintro rfl
        rw [outstanding] at outstanding'
        cases outstanding'
        subst page
        have owner := owned fault.page claim
        rw [wrote] at owner
        rcases owner with unreserved | ⟨op, cancelled, reserved⟩
        · exact skipped ⟨claimed, unreserved, claim⟩
        · exact unheld fault outstanding claimed claim op (by simp [table, reserved])
      exact ⟨other, fault', by rw [faults, update_of_ne apart, outstanding'], claimed,
        page, same⟩

/-- A claim that nothing reserves and `PGSET` did not write has a fault that is yet to settle it,
in every run in which no fault settles a claim under a local operation. -/
theorem claim_has_unsettled_fault (run : ReachedWhen SettlesUnheld k)
    (claim : (k.pages p).record.state = .claim) (unreserved : ∀ h, ¬ k.Holds h p)
    (notSet : (k.pages p).wrote ≠ .pgset) :
    ∃ task fault, k.faults task = some fault ∧ fault.claimed = true ∧ fault.page = p ∧
      (k.pages p).wrote = .fault fault.episode := by
  have reached := run.reached
  have awaited : k.Awaited := by
    apply run.invariant
    · intro before a after reply reached unheld awaited ran
      exact step_awaited reached.good reached.claims_owned reached.priors_settled unheld awaited ran
    · intro memory pins traceId monTgid tgid p episode claim
      cases claim
  have free : (k.pages p).entry = none := by
    cases entry : (k.pages p).entry with
    | none => rfl
    | some e =>
      have named : k.table p = some e.holder := by simp [table, entry]
      exact absurd ((reached.good.agreed p _).mp named) (unreserved _)
  rcases (reached.claims_owned p claim).ticketless (.inl free) with ⟨episode, wrote⟩ | set
  · obtain ⟨task, fault, outstanding, claimed, page, same⟩ := awaited p episode claim wrote
    exact ⟨task, fault, outstanding, claimed, page, by rw [same, wrote]⟩
  · exact absurd set notSet

/-- A task faults on a page and waits under its claim. -/
theorem claim_has_unsettled_fault_waiting :
    ∃ k, ReachedWhen SettlesUnheld k ∧ (k.pages ⟨0, 5⟩).record.state = .claim ∧
      ∃ task fault, k.faults task = some fault ∧ fault.claimed = true ∧ fault.page = ⟨0, 5⟩ ∧
        (k.pages ⟨0, 5⟩).wrote = .fault fault.episode := by
  let k := (next Kernel.boot (.claim 1 ⟨0, 5⟩ true false)).get (by decide)
  have run : ReachedWhen SettlesUnheld k := by
    refine ⟨_, _, _, _, _, .step .refl ⟨?_, (Option.some_get _).symm⟩⟩
    trivial
  have claim : (k.pages ⟨0, 5⟩).record.state = .claim := by decide
  have unreserved : ∀ h, ¬ k.Holds h ⟨0, 5⟩ :=
    run.reached.good.agreed.unheld (by decide)
  exact ⟨k, run, claim, claim_has_unsettled_fault run claim unreserved (by decide)⟩

/-- The sections of a fault that settles while a `POKE` holds its page, which the `POKE` then
refuses to write. -/
def settledUnderPoke : List Act :=
  [.claim 1 ⟨0, 5⟩ true false, .opBegin (.poke 0 (5 * 4096) 8 fun _ => 0), .opReserve 1 false,
    .land 1 .done, .opCheck 1 false, .opEnd 1, .opEnd 1]

/-- A fault that settles under a `POKE` leaves its claim behind: the record says `CLAIM`, nothing
reserves the page and no fault is outstanding. -/
theorem claim_outlives_fault :
    ∃ k, Reached k ∧ (k.pages ⟨0, 5⟩).record.state = .claim ∧
      (k.pages ⟨0, 5⟩).wrote = .fault 1 ∧ (∀ h, ¬ k.Holds h ⟨0, 5⟩) ∧
      ∀ task, k.faults task = none := by
  let k := (exec next Kernel.boot settledUnderPoke).get (by decide)
  have reached : Reached k := ⟨_, _, _, _, _, exec_get_reach _⟩
  refine ⟨k, reached, by decide, by decide, reached.good.agreed.unheld (by decide), ?_⟩
  intro task
  change update (update (fun _ => none) 1 (some _)) 1 none task = none
  simp [update_apply]

end Vmctx.Custody
