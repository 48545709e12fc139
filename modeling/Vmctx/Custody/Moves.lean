import Vmctx.Custody.Tickets
/-!
# What each section does to each page

One lemma per operation turns its code into the `Move` it makes at every page. `step_moves`
collects them; later results argue about moves and never open an operation again.
-/

namespace Vmctx.Custody

open Kernel Function

variable {k k' : Kernel} {reply : Reply}

theorem erase_moves {mm first last : Nat} (ran : k.pgrecEraseRange mm first last = some (k', reply))
    (p : Page) : Move k (.erase mm first last) k' p := by
  cases ran
  by_cases inRange : p.mm = mm ∧ first ≤ p.idx ∧ p.idx ≤ last
  · refine .erased inRange ?_ fun h => Iff.rfl
    simp only [if_pos inRange]
  · refine .quiet ?_ fun h => Iff.rfl
    simp only [if_neg inRange]

variable {q p : Page} {nomem : Bool} {task who id : Nat} {gen : UInt32} {a : Act} {s' : PageState}
  {t t' : Transfer}

theorem populate_moves {frame : Nat} (ran : k.populate q frame = some (k', reply)) (p : Page) :
    Move k (.populate q frame) k' p := by
  unfold Kernel.populate at ran
  split at ran
  · cases ran
    refine Move.at_page rfl (fun p _ h => Iff.rfl) (.quiet ?_ fun h => Iff.rfl)
    rw [setPage_pages, update_self]
    rfl
  · cases ran

/-- A claim that does not wait writes `CLAIM`, or is reported without writing. -/
theorem claim_moves {mayWait : Bool} (ran : k.pgrecClaim task q mayWait nomem = some (k', reply))
    (p : Page) : Move k (.claim task q mayWait nomem) k' p := by
  unfold pgrecClaim at ran
  split at ran
  · cases ran
  · next idle =>
    simp only at ran
    split at ran
    · split at ran <;> cases ran <;> exact Move.idle rfl fun h p => Iff.rfl
    · next free =>
      split at ran
      · cases ran
        exact Move.idle rfl fun h p => Iff.rfl
      · cases ran
        rw [Option.not_isSome_iff_eq_none] at idle
        cases reserved : (k.pages q).entry with
        | some entry => simp [seenState, reserved] at free
        | none =>
          refine Move.writes_at rfl rfl (fun h p => Iff.rfl) (.claim idle reserved ?_)
          simpa [seenState, reserved, PgRec.inFlight] using free

theorem land_moves {action : Action} (ran : k.pgrecLand task action = some (k', reply)) (p : Page) :
    Move k (.land task action) k' p := by
  unfold pgrecLand at ran
  split at ran
  · cases ran
  · next fault outstanding =>
    simp only at ran
    split at ran
    · cases ran
      exact Move.idle rfl fun h p => Iff.rfl
    · next settles =>
      cases ran
      simp only [not_or, Bool.not_eq_false, Option.not_isSome_iff_eq_none, ne_eq,
        not_not] at settles
      exact Move.writes_at rfl rfl (fun h p => Iff.rfl)
        (.land outstanding rfl settles.1 settles.2.1 settles.2.2)

/-- `PGSET` writes the record of an unreserved page, or writes nothing. -/
theorem pgset_moves {state : PgState} (ran : k.ctlPgset q state gen nomem = some (k', reply))
    (p : Page) : Move k (.pgset q state gen nomem) k' p := by
  simp only [ctlPgset] at ran
  split at ran
  · cases ran
    exact Move.idle rfl fun h p => Iff.rfl
  · next unreserved =>
    split at ran
    · cases ran
      exact Move.idle rfl fun h p => Iff.rfl
    · next quiet =>
      cases ran
      rw [Option.not_isSome_iff_eq_none] at unreserved
      by_cases full : (k.pages q).record = .absent ∧ nomem = true
      · refine Move.idle ?_ fun h p => Iff.rfl
        simp [setPage, PageState.store, full]
      · refine Move.writes_at ?_ rfl (fun h p => Iff.rfl) (.pgset unreserved ?_)
        · rw [setPage_pages, PageState.store, if_neg full]
        · intro claims
          simpa [claims] using quiet

/-- `PGACK` writes the record of an unreserved page in `TRANSIT`, or writes nothing. -/
theorem pgack_moves {sum : UInt16} (ran : k.ctlPgack q sum = some (k', reply)) (p : Page) :
    Move k (.pgack q sum) k' p := by
  simp only [ctlPgack] at ran
  split at ran
  · cases ran
    exact Move.idle rfl fun h p => Iff.rfl
  · split at ran
    · cases ran
      exact Move.idle rfl fun h p => Iff.rfl
    · next unreserved =>
      rw [Option.not_isSome_iff_eq_none] at unreserved
      split at ran
      · next handed =>
        cases ran
        exact Move.writes_at rfl rfl (fun h p => Iff.rfl) (.pgack unreserved handed.1)
      · cases ran
        exact Move.idle rfl fun h p => Iff.rfl

/-- `BEGIN` of a recall reserves and claims a lent page, or changes nothing there. -/
theorem recallBegin_moves {vma : Bool} (good : k.Good)
    (ran : k.recallBegin who q vma nomem = some (k', reply)) (p : Page) :
    Move k (.recallBegin who q vma nomem) k' p := by
  simp only [Kernel.recallBegin] at ran
  split at ran
  · cases ran
    exact Move.idle rfl fun h p => Iff.rfl
  next unreserved =>
  split at ran
  · cases ran
    exact Move.idle rfl fun h p => Iff.rfl
  split at ran
  · cases ran
    exact Move.idle rfl fun h p => Iff.rfl
  next lent =>
  split at ran
  · cases ran
    exact Move.idle rfl fun h p => Iff.rfl
  split at ran
  · cases ran
    exact Move.idle rfl fun h p => Iff.rfl
  split at ran
  · cases ran
    exact Move.idle rfl fun h p => Iff.rfl
  · cases ran
    rw [Option.not_isSome_iff_eq_none] at unreserved
    rw [ne_eq, not_not] at lent
    have fresh := good.recallFresh (k.recallNext + 1) (Nat.lt_succ_self _)
    refine Move.at_page rfl ?_ (.recalled rfl unreserved lent ?_ ?_)
    · intro p apart h
      refine Iff.trans (holds_addRecall fresh rfl) ?_
      simp [apart]
    · simp
    · intro h
      refine Iff.trans (holds_addRecall fresh rfl) ?_
      simp

theorem recallFinish_moves {idx : Nat} {op : RecallOp}
    (ran : k.recallFinish who id idx op = some (k', reply)) (p : Page) :
    Move k (.recallFinish who id idx op) k' p := by
  simp only [Kernel.recallFinish] at ran
  split at ran
  · cases ran
    exact Move.idle rfl fun h p => Iff.rfl
  split at ran
  · cases ran
    exact Move.idle rfl fun h p => Iff.rfl
  next t ticket =>
  split at ran
  · cases ran
    exact Move.idle rfl fun h p => Iff.rfl
  split at ran
  · cases ran
    exact Move.idle rfl fun h p => Iff.rfl
  split at ran
  · cases ran
    exact Move.idle rfl fun h p => holds_setRecall ticket rfl rfl
  · cases ran
    exact Move.idle rfl fun h p => holds_setRecall ticket rfl rfl
  · cases ran

theorem recallPin_moves {gup : Except Errno Nat} (ran : k.recallPin id gup = some (k', reply))
    (p : Page) : Move k (.recallPin id gup) k' p := by
  simp only [Kernel.recallPin] at ran
  split at ran
  · cases ran
  next t ticket =>
  split at ran
  · split at ran
    · cases ran
      exact Move.idle rfl fun h p => holds_setRecall ticket rfl rfl
    · split at ran
      · cases ran
        exact Move.idle rfl fun h p => holds_setRecall ticket rfl rfl
      next frame live =>
      cases ran
      refine Move.at_page rfl (fun p _ h => holds_setRecall ticket rfl rfl)
        (.quiet ?_ fun h => holds_setRecall ticket rfl rfl)
      simp [PageState.core]
  · cases ran

theorem unlink_moves {t : RecallTicket} {landed : Bool} (ticket : k.recalls id = some t)
    (by_ : a = .recallLand id ∨ a = .recallConsume id ∨ ∃ who, a = .recallExit who id)
    (lands : landed = true → (k.pages t.page).cancelled (.recallTicket id) = false ∧
      (k.pages t.page).record.state = .claim ∧ a = .recallLand id)
    (pages : k'.pages = update k.pages t.page
      (recallUnlinkPage (k.pages t.page) id t.prior landed gen))
    (owners : k'.owners = (update k.recalls id none, k.ops, k.transfers)) : Move k a k' p := by
  have here : (k'.pages t.page).core =
      (recallUnlinkPage (k.pages t.page) id t.prior landed gen).core := by
    rw [pages, update_self]
  refine Move.at_page pages ?_
    (.unlinked ticket rfl by_ lands here fun h => holds_dropRecall owners)
  intro p apart h
  rw [holds_dropRecall owners]
  constructor
  · exact And.left
  · intro holds
    refine ⟨holds, ?_⟩
    rintro rfl
    obtain ⟨other, found, there⟩ := holds
    rw [ticket, Option.some.injEq] at found
    rw [← found] at there
    exact apart there.symm

theorem recallLand_moves (ran : k.recallLand id = some (k', reply)) (p : Page) :
    Move k (.recallLand id) k' p := by
  simp only [Kernel.recallLand] at ran
  split at ran
  · cases ran
  next t ticket =>
  split at ran
  · split at ran
    · cases ran
      refine unlink_moves ticket (.inl rfl) ?_ rfl rfl
      intro lands
      cases lands
    next live =>
    split at ran
    · cases ran
      refine unlink_moves ticket (.inl rfl) ?_ rfl rfl
      intro lands
      cases lands
    next standing =>
    cases ran
    refine unlink_moves ticket (.inl rfl) (fun _ => ⟨?_, ?_, rfl⟩) rfl rfl
    · simpa using live
    · simpa using standing
  · cases ran

theorem recallConsume_moves (ran : k.recallConsume id = some (k', reply)) (p : Page) :
    Move k (.recallConsume id) k' p := by
  simp only [Kernel.recallConsume] at ran
  split at ran
  · cases ran
  next t ticket =>
  split at ran
  · cases ran
    refine unlink_moves ticket (.inr (.inl rfl)) ?_ rfl rfl
    intro lands
    cases lands
  · cases ran

theorem recallExit_moves (ran : k.recallExit who id = some (k', reply)) (p : Page) :
    Move k (.recallExit who id) k' p := by
  simp only [Kernel.recallExit] at ran
  split at ran
  · cases ran
  next t ticket =>
  split at ran
  · split at ran
    · cases ran
      refine unlink_moves ticket (.inr (.inr ⟨who, rfl⟩)) ?_ rfl rfl
      intro lands
      cases lands
    · cases ran
  · cases ran

theorem opBegin_moves {kind : OpKind} (good : k.Good) (ran : k.opBegin kind = some (k', reply))
    (p : Page) : Move k (.opBegin kind) k' p := by
  cases ran
  refine Move.idle rfl fun h p => holds_emptyOp ?_ ?_ rfl
  · intro op found
    rw [good.opFresh _ (Nat.lt_succ_self _)] at found
    cases found
  · intro op same
    cases same
    rfl

theorem opFail_moves {op : LocalOp} {errno : Errno} (found : k.ops id = some op)
    (ran : k.opFail id op errno = some (k', reply)) (p : Page) : Move k a k' p := by
  cases ran
  exact Move.idle rfl fun h p => holds_setOp found rfl rfl

theorem opReserve_moves (ran : k.opReserve id nomem = some (k', reply)) (p : Page) :
    Move k (.opReserve id nomem) k' p := by
  simp only [Kernel.opReserve] at ran
  split at ran
  · next kind q rest held found =>
    split at ran
    · exact opFail_moves found ran p
    next unreserved =>
    split at ran
    · exact opFail_moves found ran p
    split at ran
    · exact opFail_moves found ran p
    cases ran
    rw [Option.not_isSome_iff_eq_none] at unreserved
    refine Move.at_page rfl ?_ (.reserved unreserved (.inl ⟨id, nomem, rfl, rfl⟩) ?_ ?_)
    · intro p apart h
      refine Iff.trans (holds_growOp found rfl rfl) ?_
      simp [apart]
    · simp
    · intro h
      refine Iff.trans (holds_growOp found rfl rfl) ?_
      simp
  · cases ran

theorem opCheck_moves {taken : Bool} (ran : k.opCheck id taken = some (k', reply)) (p : Page) :
    Move k (.opCheck id taken) k' p := by
  simp only [Kernel.opCheck] at ran
  split at ran
  · next kind held found =>
    split at ran <;> cases ran <;> exact .quiet rfl fun h => holds_setOp found rfl rfl
  · cases ran

theorem opPin_moves {gup : Except Errno (List Nat)} (ran : k.opPin id gup = some (k', reply))
    (p : Page) : Move k (.opPin id gup) k' p := by
  simp only [Kernel.opPin] at ran
  split at ran
  · next kind held found =>
    split at ran
    · exact opFail_moves found ran p
    · cases ran
      refine .quiet ?_ fun h => holds_setOp found rfl rfl
      simp only [setOp_pages]
      split <;> rfl
  · cases ran

theorem opWrite_moves {nomem : List Page} (good : k.Good)
    (ran : k.opWrite id nomem = some (k', reply)) (p : Page) : Move k (.opWrite id nomem) k' p := by
  simp only [Kernel.opWrite] at ran
  split at ran
  · next kind held frames found =>
    split at ran
    · exact opFail_moves found ran p
    next live =>
    cases ran
    by_cases member : p ∈ held
    · have uncancelled : (k.pages p).cancelled (.guard id) = false := by
        by_contra gone
        rw [Bool.not_eq_false] at gone
        exact live (List.any_eq_true.mpr ⟨p, member, gone⟩)
      have entry := good.agreed.entry_live (h := .guard id) ⟨_, found, member⟩ uncancelled
      by_cases full : (k.pages p).record = .absent ∧ nomem.contains p = true
      · refine .quiet ?_ fun h => holds_setOp found rfl rfl
        simp only [setOp_pages, if_pos member, PageState.store, if_pos full]
      · have writes : Writes k p (.opWrite id nomem)
            ⟨.home, 0, opGen kind (k.pages p).record.gen⟩ (.guard id) := .op entry
        refine .wrote writes ?_ fun h => holds_setOp found rfl rfl
        simp only [setOp_pages, if_pos member, PageState.store, if_neg full]
    · refine .quiet ?_ fun h => holds_setOp found rfl rfl
      simp only [setOp_pages, if_neg member]
  · cases ran

theorem opEnd_moves (good : k.Good) (ran : k.opEnd id = some (k', reply)) (p : Page) :
    Move k (.opEnd id) k' p := by
  simp only [Kernel.opEnd] at ran
  split at ran
  · next kind todo q rest result found =>
    cases ran
    have once := good.distinct id _ found
    refine Move.at_page rfl ?_
      (.released (h := .guard id) ⟨_, found, List.mem_cons_self⟩ (.inl ⟨id, rfl, rfl⟩) ?_ ?_)
    · intro p apart h
      refine Iff.trans (holds_shrinkOp found once rfl rfl) ?_
      simp [apart]
    · simp
    · intro h
      refine Iff.trans (holds_shrinkOp found once rfl rfl) ?_
      simp
  · next found =>
    cases ran
    refine Move.idle rfl fun h p => holds_emptyOp ?_ ?_ rfl
    · intro op same
      rw [found, Option.some.injEq] at same
      rw [← same]
    · intro op same
      cases same
  · cases ran

theorem ticket_quiet (ticket : k.transfers id = some t)
    (pages : k'.pages = update k.pages t.page s') (core : s'.core = (k.pages t.page).core)
    (owners : k'.owners = (k.recalls, k.ops, update k.transfers id (some t')))
    (same : t'.reserves = t.reserves) : Move k a k' p := by
  have holding (h : Holder) (p : Page) : k'.Holds h p ↔ k.Holds h p :=
    holds_setTransfer ticket owners same
  refine Move.at_page pages (fun p _ h => holding h p) (.quiet ?_ fun h => holding h t.page)
  rw [pages, update_self, core]

theorem ticket_writes {r : PgRec} (ticket : k.transfers id = some t)
    (writes : Writes k t.page a r (.transfer id)) (pages : k'.pages = update k.pages t.page s')
    (core : s'.core = ((k.pages t.page).write r (.transfer id)).core)
    (owners : k'.owners = (k.recalls, k.ops, update k.transfers id (some t')))
    (same : t'.reserves = t.reserves) : Move k a k' p :=
  Move.writes_at pages core (fun _ _ => holds_setTransfer ticket owners same) writes

theorem ticket_drops {t' : Option Transfer} (ticket : k.transfers id = some t)
    (bare : ∀ s, t' = some s → s.guarded = false) (pages : k'.pages = if t.guarded then
      update k.pages t.page (k.pages t.page).release else k.pages)
    (owners : k'.owners = (k.recalls, k.ops, update k.transfers id t'))
    (own : a.ofTransfer = true) : Move k a k' p := by
  have holding : ∀ h p, k'.Holds h p ↔ k.Holds h p ∧ h ≠ .transfer id :=
    fun h p => holds_bareTransfer bare owners
  have others : ∀ p, (t.guarded = false ∨ p ≠ t.page) → ∀ h, k'.Holds h p ↔ k.Holds h p := by
    intro p apart h
    rw [holding]
    constructor
    · exact And.left
    · intro holds
      refine ⟨holds, ?_⟩
      rintro rfl
      obtain ⟨other, found, here, guarded⟩ := holds
      rw [ticket, Option.some.injEq] at found
      rw [← found] at here guarded
      rcases apart with bare | apart
      · rw [bare] at guarded
        cases guarded
      · exact apart here.symm
  cases guarded : t.guarded with
  | true =>
    rw [guarded, if_pos rfl] at pages
    refine Move.at_page pages (fun p apart => others p (.inr apart))
      (.released (h := .transfer id) ⟨t, ticket, rfl, guarded⟩ (.inr ⟨own, id, rfl⟩) ?_
        fun h => holding h t.page)
    rw [pages, update_self]
  | false =>
    rw [guarded, if_neg (by decide)] at pages
    exact Move.idle pages fun h p => others p (.inl guarded) h

theorem Kernel.Good.capture_holds (good : k.Good) (ticket : k.transfers id = some t)
    (capturing : t.pc.capturing = true) : k.Holds (.transfer id) t.page :=
  ⟨t, ticket, rfl, (good.formed id t ticket).capturing capturing⟩

/-- A ticket that takes its guard reserves its page. -/
theorem guards_moves (good : k.Good) (ticket : k.transfers id = some t)
    (unreserved : (k.pages t.page).entry = none)
    (settled : (k.pages t.page).record.inFlight = false)
    (pages : k'.pages = update k.pages t.page ((k.pages t.page).reserve (.transfer id)))
    (owners : k'.owners = (k.recalls, k.ops, update k.transfers id (some t')))
    (guards : t'.reserves = (t.page, true)) (p : Page) : Move k (.captureGuard id nomem) k' p := by
  have bare : t.guarded = false := by
    by_contra guarded
    rw [Bool.not_eq_false] at guarded
    exact good.agreed.unheld unreserved (.transfer id) ⟨t, ticket, rfl, guarded⟩
  have holding (h : Holder) (p : Page) :
      k'.Holds h p ↔ (h = .transfer id ∧ p = t.page) ∨ k.Holds h p :=
    holds_guardTransfer ticket bare owners guards
  refine Move.at_page pages ?_
    (.reserved unreserved (.inr ⟨id, nomem, rfl, rfl, settled⟩) ?_ ?_)
  · intro p apart h
    simp [holding, apart]
  · rw [pages, update_self]
  · intro h
    simp [holding]

theorem captureShared_moves {copy : Copy} (good : k.Good)
    (ran : k.captureShared id copy = some (k', reply)) (p : Page) :
    Move k (.captureShared id copy) k' p := by
  simp only [Kernel.captureShared] at ran
  split at ran
  · cases ran
  next t ticket =>
  split at ran
  · next record claim sv here =>
    have holds := good.capture_holds ticket (by rw [here]; rfl)
    split at ran
    · cases ran
      exact Move.idle rfl fun _ _ => holds_setTransfer ticket rfl rfl
    next live =>
    have entry := good.agreed.entry_live holds (by simpa using live)
    -- Putting the old record back writes only while the claim stands.
    have restores : ∀ (t' : Transfer) (copy : Copy) (k' : Kernel),
        (copy = .absent ∨ ∃ errno, copy = .error errno) →
        t'.reserves = t.reserves →
        k' = (k.setPage t.page (if (k.pages t.page).record = claim then
          (k.pages t.page).write record (.transfer id) else k.pages t.page)).setTransfer id
            (some t') → Move k (.captureShared id copy) k' p := by
      rintro t' copy k' outcome same rfl
      split
      · next standing =>
        exact ticket_writes ticket
          (.shareSettle ticket rfl here entry standing (.inr ⟨outcome, rfl⟩)) rfl rfl rfl same
      · refine Move.idle ?_ fun _ _ => holds_setTransfer ticket rfl same
        simp
    split at ran
    · split at ran
      · next standing =>
        cases ran
        exact ticket_writes ticket
          (.shareSettle ticket rfl here entry standing (.inl ⟨_, _, rfl, rfl⟩)) rfl rfl rfl rfl
      · cases ran
        exact Move.idle rfl fun _ _ => holds_setTransfer ticket rfl rfl
    · cases ran
      exact restores _ _ _ (.inl rfl) (by rfl) rfl
    · cases ran
      exact restores _ _ _ (.inr ⟨_, rfl⟩) (by rfl) rfl
  · cases ran

/-- A change of a ticket is one move of its page; settling a shared copy is described above. -/
theorem Change.moves (good : k.Good) (ticket : k.transfers id = some t)
    (change : Change k id t a t' s') (pages : k'.pages = update k.pages t.page s')
    (owners : k'.owners = (k.recalls, k.ops, update k.transfers id (some t')))
    (other : ∀ copy, a ≠ .captureShared id copy) (p : Page) : Move k a k' p := by
  cases change with
  | replied | attempts | guardFails | reads | shareFails | markMoved | markFails | takeLost
  | finishes | offers | readEnds | settles =>
    exact ticket_quiet ticket pages rfl owners rfl
  | guards _ unreserved settled =>
    exact guards_moves good ticket unreserved settled pages owners rfl p
  | shareClaims at_ live read =>
    have entry := good.agreed.entry_live (good.capture_holds ticket (by rw [at_]; rfl)) live
    exact ticket_writes ticket (.shareClaim ticket rfl at_ entry read) pages rfl owners rfl
  | shareLoses | shareRestores | shareWins => exact absurd rfl (other _)
  | marks at_ here =>
    obtain ⟨cancelled, entry⟩ :=
      good.agreed.entry (good.capture_holds ticket (by rw [at_]; rfl))
    exact ticket_writes ticket (.mark ticket rfl at_ entry here) pages rfl owners rfl
  | takes at_ standing =>
    obtain ⟨cancelled, entry⟩ :=
      good.agreed.entry (good.capture_holds ticket (by rw [at_]; rfl))
    exact ticket_writes ticket (.take ticket rfl at_ entry standing) pages rfl owners rfl
  | acks waiting _ unsettled offered grants live handed =>
    have succeeded : t.succeeded = true := by
      simp only [Transfer.grants, Bool.and_eq_true] at grants
      simp [Transfer.succeeded, waiting, grants.1]
    have guarded := (good.formed id t ticket).succeeded unsettled succeeded
    have entry := good.agreed.entry_live (h := .transfer id) ⟨t, ticket, rfl, guarded⟩ live
    exact ticket_writes ticket
      (.ack ticket rfl waiting grants offered unsettled entry handed) pages rfl owners rfl
  | drops _ page =>
    refine ticket_drops ticket ?_ ?_ owners rfl
    · intro s same
      cases same
      rfl
    · rw [pages, page]
      split
      · rfl
      · exact update_eq_self _ _

/-- The exit of a thread leaves its tickets' reservations alone. -/
theorem transferOwnerExit_moves (ran : k.transferOwnerExit who = some (k', reply)) (p : Page) :
    Move k (.transferOwnerExit who) k' p := by
  simp only [Kernel.transferOwnerExit] at ran
  split at ran
  · cases ran
  · cases ran
    refine Move.idle rfl fun h p => ?_
    cases h with
    | recallTicket id => rfl
    | guard id => rfl
    | transfer id =>
      simp only [Holds, Option.map_eq_some_iff]
      constructor
      · rintro ⟨t, ⟨s, ticket, rfl⟩, here, guarded⟩
        refine ⟨s, ticket, ?_, ?_⟩
        · rw [← here]
          split <;> rfl
        · rw [← guarded]
          split <;> rfl
      · rintro ⟨s, ticket, here, guarded⟩
        refine ⟨_, ⟨s, ticket, rfl⟩, ?_, ?_⟩
        · rw [← here]
          split <;> rfl
        · rw [← guarded]
          split <;> rfl

/-- What a section of a transfer ticket does to the pages. -/
theorem TransferMove.moves (good : k.Good) (own : a.ofTransfer = true)
    (apart : ∀ id copy, a ≠ .captureShared id copy)
    (frame : k'.recalls = k.recalls ∧ k'.ops = k.ops) (move : TransferMove k a k') (p : Page) :
    Move k a k' p := by
  have owners {transfers : Nat → Option Transfer} (same : k'.transfers = transfers) :
      k'.owners = (k.recalls, k.ops, transfers) := by
    rw [Kernel.owners, frame.1, frame.2, same]
  cases move with
  | untouched idle =>
    obtain other | rfl := idle
    · rw [own] at other
      cases other
    · exact Move.idle rfl fun h p => Iff.rfl
  | @begun who mmIdentity q _ pages transfers =>
    have bare : ∀ t, some (Transfer.begun who q mmIdentity) = some t → t.guarded = false := by
      intro t same
      cases same
      rfl
    refine Move.idle pages fun h p => Iff.trans (holds_bareTransfer bare (owners transfers)) ?_
    refine and_iff_left_of_imp fun holds => ?_
    rintro rfl
    obtain ⟨t, found, -⟩ := holds
    rw [good.transferFresh _ (Nat.lt_succ_self _)] at found
    cases found
  | changed ticket change pages transfers =>
    exact change.moves good ticket pages (owners transfers) (apart _) p
  | freed ticket _ pages transfers | disposed ticket _ pages transfers =>
    exact ticket_drops ticket (by simp) pages (owners transfers) own
  | exited exits ran =>
    rw [exits]
    exact transferOwnerExit_moves ran p

theorem step_moves (good : k.Good) (ran : step k a = some (k', reply)) (p : Page) :
    Move k a k' p := by
  cases a with
  | erase => exact erase_moves ran p
  | zap =>
    cases ran
    exact .quiet rfl fun h => Iff.rfl
  | populate => exact populate_moves ran p
  | store | accessFail =>
    cases ran
    exact Move.idle rfl fun h p => Iff.rfl
  | claim => exact claim_moves ran p
  | land => exact land_moves ran p
  | recallBegin => exact recallBegin_moves good ran p
  | recallFinish => exact recallFinish_moves ran p
  | recallPin => exact recallPin_moves ran p
  | recallLand => exact recallLand_moves ran p
  | recallConsume => exact recallConsume_moves ran p
  | recallExit => exact recallExit_moves ran p
  | opBegin => exact opBegin_moves good ran p
  | opReserve => exact opReserve_moves ran p
  | opCheck => exact opCheck_moves ran p
  | opPin => exact opPin_moves ran p
  | opWrite => exact opWrite_moves good ran p
  | opEnd => exact opEnd_moves good ran p
  | pgset => exact pgset_moves ran p
  | pgack => exact pgack_moves ran p
  | captureShared => exact captureShared_moves good ran p
  | _ =>
    obtain ⟨-, other | ⟨recalls, -⟩, other' | ⟨ops, -⟩, -⟩ := step_frame ran
    · cases other
    · cases other
    · cases other'
    · exact (step_tickets ran).moves good rfl (by simp) ⟨recalls, ops⟩ p

end Vmctx.Custody
