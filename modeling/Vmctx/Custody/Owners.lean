import Vmctx.Custody.Moves
/-!
# What each section does to faults, recall tickets and local operations

As for transfer tickets: a section leaves them alone, begins one, changes one or ends one. From
these descriptions and from what a section does to pages, `Good` is kept by every section, so it
holds in every state of every run.
-/

namespace Vmctx.Custody

open Kernel Function

variable {k k' : Kernel} {reply : Reply}

inductive FaultMove (k : Kernel) (a : Act) (k' : Kernel) : Prop
  | untouched (idle : a.ofFault = false ∨ k' = k) (faults : k'.faults = k.faults)
      (episodes : k'.episodes = k.episodes)
  | claimed {task : Nat} {p : Page} {mayWait nomem : Bool}
      (claims : a = .claim task p mayWait nomem)
      (idle : k.faults task = none) (unreserved : (k.pages p).entry = none)
      (quiet : (k.pages p).record.inFlight = false)
      (page : k'.pages = update k.pages p ((k.pages p).write
        ⟨.claim, 0, (k.pages p).record.gen⟩ (.fault (k.episodes + 1))))
      (faults : k'.faults = update k.faults task
        (some ⟨p, true, (k.pages p).record.state, k.episodes + 1⟩))
      (episodes : k'.episodes = k.episodes + 1)
  | parked {task : Nat} {p : Page} {mayWait nomem : Bool} {prior : PgState}
      (claims : a = .claim task p mayWait nomem) (idle : k.faults task = none)
      (pages : k'.pages = k.pages)
      (faults : k'.faults = update k.faults task (some ⟨p, false, prior, 0⟩))
      (episodes : k'.episodes = k.episodes)
  | settled {task : Nat} {action : Action} {fault : Fault} (settles : a = .land task action)
      (outstanding : k.faults task = some fault)
      (faults : k'.faults = update k.faults task none)
      (episodes : k'.episodes = k.episodes)

theorem step_faults {a : Act} (ran : step k a = some (k', reply)) : FaultMove k a k' := by
  cases own : a.ofFault with
  | false =>
    obtain ⟨own' | ⟨faults, episodes⟩, -⟩ := step_frame ran
    · rw [own] at own'
      cases own'
    · exact .untouched (.inl own) faults episodes
  | true =>
    cases a with
    | claim task p mayWait nomem =>
      simp only [step, pgrecClaim] at ran
      split at ran
      · cases ran
      next idle =>
      rw [Option.not_isSome_iff_eq_none] at idle
      split at ran
      · split at ran <;> cases ran
        · exact .untouched (.inr rfl) rfl rfl
        · exact .parked rfl idle rfl rfl rfl
      next settled =>
      split at ran <;> cases ran
      · exact .parked rfl idle rfl rfl rfl
      · obtain ⟨unreserved, quiet⟩ : (k.pages p).entry = none ∧
            (k.pages p).record.inFlight = false := by
          unfold seenState at settled
          cases entry : (k.pages p).entry <;> simp_all [PgRec.inFlight]
        refine .claimed rfl idle unreserved quiet rfl ?_ rfl
        simp only [seenState, unreserved, Option.isSome_none, Bool.false_eq_true, if_false]
        rfl
    | land task action =>
      simp only [step, pgrecLand] at ran
      split at ran
      · cases ran
      next fault outstanding =>
      split at ran <;> cases ran <;> exact .settled rfl outstanding rfl rfl
    | _ => cases own

/-- How a section may change what the owner of a recall ticket is doing. -/
inductive RecallChange (k : Kernel) (id : Nat) (t : RecallTicket) : Act → RecallPc → Prop
  | commits {idx : Nat} {gen : UInt32} {bytes : PageBytes} (waiting : t.pc = .idle)
      (named : t.page.idx = idx) :
      RecallChange k id t (.recallFinish t.owner id idx (.commit gen bytes))
        (.committing gen bytes)
  | cancels {idx : Nat} (waiting : t.pc = .idle) (named : t.page.idx = idx) :
      RecallChange k id t (.recallFinish t.owner id idx .cancel) (.consuming none)
  | pinFails {gen : UInt32} {bytes : PageBytes} {gup : Except Errno Nat} {errno : Errno}
      (at_ : t.pc = .committing gen bytes) :
      RecallChange k id t (.recallPin id gup) (.consuming (some errno))
  | pins {gen : UInt32} {bytes : PageBytes} {frame : Nat} (at_ : t.pc = .committing gen bytes)
      (live : (k.pages t.page).cancelled (.recallTicket id) = false) :
      RecallChange k id t (.recallPin id (.ok frame)) (.pinned gen bytes frame)

inductive RecallMove (k : Kernel) (a : Act) (k' : Kernel) : Prop
  | untouched (recalls : k'.recalls = k.recalls) (next : k.recallNext ≤ k'.recallNext)
  | begun {who : Nat} {p : Page} {vma nomem : Bool} (begins : a = .recallBegin who p vma nomem)
      (lent : (k.pages p).record.state = .remote)
      (recalls : k'.recalls = update k.recalls (k.recallNext + 1)
        (some ⟨p, who, (k.pages p).record, .idle, (k.pages p).erasures⟩))
      (next : k'.recallNext = k.recallNext + 1)
  | changed {id : Nat} {t : RecallTicket} {pc : RecallPc} (ticket : k.recalls id = some t)
      (change : RecallChange k id t a pc)
      (recalls : k'.recalls = update k.recalls id (some { t with pc := pc }))
      (next : k'.recallNext = k.recallNext)
  | ended {id : Nat} {t : RecallTicket} (ticket : k.recalls id = some t)
      (by_ : (a = .recallLand id ∧ ∃ gen bytes frame, t.pc = .pinned gen bytes frame) ∨
        (a = .recallConsume id ∧ ∃ result, t.pc = .consuming result) ∨
        (a = .recallExit t.owner id ∧ t.pc = .idle))
      (recalls : k'.recalls = update k.recalls id none)
      (next : k'.recallNext = k.recallNext)

theorem step_recalls {a : Act} (ran : step k a = some (k', reply)) : RecallMove k a k' := by
  obtain ⟨-, own | ⟨recalls, next⟩, -⟩ := step_frame ran
  · cases a with
    | recallBegin who p vma nomem =>
      simp only [step, recallBegin] at ran
      split at ran
      · cases ran
        exact .untouched rfl (Nat.le_refl _)
      split at ran
      · cases ran
        exact .untouched rfl (Nat.le_refl _)
      split at ran
      · cases ran
        exact .untouched rfl (Nat.le_refl _)
      next lent =>
      rw [ne_eq, not_not] at lent
      split at ran
      · cases ran
        exact .untouched rfl (Nat.le_refl _)
      split at ran
      · cases ran
        exact .untouched rfl (Nat.le_refl _)
      split at ran <;> cases ran
      · exact .untouched rfl (Nat.le_succ _)
      · exact .begun rfl lent rfl rfl
    | recallFinish who id idx op =>
      simp only [step, recallFinish] at ran
      split at ran
      · cases ran
        exact .untouched rfl (Nat.le_refl _)
      split at ran
      · cases ran
        exact .untouched rfl (Nat.le_refl _)
      next t ticket =>
      split at ran
      · cases ran
        exact .untouched rfl (Nat.le_refl _)
      next mine =>
      split at ran
      · cases ran
        exact .untouched rfl (Nat.le_refl _)
      next named =>
      rw [ne_eq, not_not] at mine named
      rw [← mine]
      split at ran
      next waiting =>
        cases ran
        exact .changed ticket (.commits waiting named) rfl rfl
      next waiting =>
        cases ran
        exact .changed ticket (.cancels waiting named) rfl rfl
      · cases ran
    | recallPin id gup =>
      simp only [step, recallPin] at ran
      split at ran
      · cases ran
      next t ticket =>
      split at ran
      case h_2 => cases ran
      next committing =>
      split at ran
      · cases ran
        exact .changed ticket (.pinFails committing) rfl rfl
      split at ran
      · cases ran
        exact .changed ticket (.pinFails committing) rfl rfl
      next live =>
      cases ran
      exact .changed ticket (.pins committing (by simpa using live)) rfl rfl
    | recallLand id =>
      simp only [step, recallLand] at ran
      split at ran
      · cases ran
      next t ticket =>
      split at ran
      case h_2 => cases ran
      next gen bytes frame pinned =>
      split at ran
      · cases ran
        exact .ended ticket (.inl ⟨rfl, _, _, _, pinned⟩) rfl rfl
      split at ran <;> cases ran <;> exact .ended ticket (.inl ⟨rfl, _, _, _, pinned⟩) rfl rfl
    | recallConsume id =>
      simp only [step, recallConsume] at ran
      split at ran
      · cases ran
      next t ticket =>
      split at ran <;> cases ran
      next consuming =>
      exact .ended ticket (.inr (.inl ⟨rfl, _, consuming⟩)) rfl rfl
    | recallExit who id =>
      simp only [step, recallExit] at ran
      split at ran
      · cases ran
      next t ticket =>
      split at ran
      case h_2 => cases ran
      next waiting =>
      split at ran <;> cases ran
      next mine =>
      rw [← mine]
      exact .ended ticket (.inr (.inr ⟨rfl, waiting⟩)) rfl rfl
    | _ => cases own
  · exact .untouched recalls (Nat.le_of_eq next.symm)

inductive OpChange (k : Kernel) (id : Nat) : LocalOp → Act → LocalOp → Prop
  | reserves {kind : OpKind} {p : Page} {rest held : List Page} {nomem : Bool}
      (unreserved : (k.pages p).entry = none) :
      OpChange k id ⟨kind, p :: rest, held, .reserving⟩ (.opReserve id nomem)
        ⟨kind, rest, p :: held, .reserving⟩
  | fails {op : LocalOp} {a : Act} {result : Option Errno} :
      OpChange k id op a { op with pc := .ending result }
  | passes {kind : OpKind} {held : List Page} {taken : Bool} :
      OpChange k id ⟨kind, [], held, .reserving⟩ (.opCheck id taken) ⟨kind, [], held, .checked⟩
  | pins {kind : OpKind} {held : List Page} {frames : List Nat} :
      OpChange k id ⟨kind, [], held, .checked⟩ (.opPin id (.ok frames))
        ⟨kind, [], held, .pinned frames⟩
  | releases {kind : OpKind} {p : Page} {todo rest : List Page} {result : Option Errno} :
      OpChange k id ⟨kind, todo, p :: rest, .ending result⟩ (.opEnd id)
        ⟨kind, todo, rest, .ending result⟩

/-- The local operation that a section is one of. -/
def Act.opId : Act → Option Nat
  | .opReserve id _ | .opCheck id _ | .opPin id _ | .opWrite id _ | .opEnd id => some id
  | _ => none

inductive OpMove (k : Kernel) (a : Act) (k' : Kernel) : Prop
  | untouched (idle : a.opId = none) (ops : k'.ops = k.ops) (next : k'.opNext = k.opNext)
  | begun {kind : OpKind} (begins : a = .opBegin kind)
      (ops : k'.ops = update k.ops (k.opNext + 1)
        (some ⟨kind, kind.pages, [], .reserving⟩))
      (next : k'.opNext = k.opNext + 1)
  | changed {id : Nat} {op op' : LocalOp} (own : a.opId = some id) (found : k.ops id = some op)
      (change : OpChange k id op a op') (ops : k'.ops = update k.ops id (some op'))
      (next : k'.opNext = k.opNext)
  | ended {id : Nat} {kind : OpKind} {todo : List Page} {result : Option Errno}
      (ends : a = .opEnd id) (found : k.ops id = some ⟨kind, todo, [], .ending result⟩)
      (ops : k'.ops = update k.ops id none) (next : k'.opNext = k.opNext)

theorem step_ops {a : Act} (ran : step k a = some (k', reply)) : OpMove k a k' := by
  cases own : a.ofOp with
  | false =>
    obtain ⟨-, -, own' | ⟨ops, next⟩, -⟩ := step_frame ran
    · rw [own] at own'
      cases own'
    · refine .untouched ?_ ops next
      cases a <;> first | rfl | cases own
  | true =>
    cases a with
    | opBegin kind =>
      cases ran
      exact .begun rfl rfl rfl
    | opReserve id nomem =>
      simp only [step, opReserve] at ran
      split at ran
      case h_2 => cases ran
      next kind p rest held found =>
      split at ran
      · cases ran
        exact .changed rfl found .fails rfl rfl
      next unreserved =>
      rw [Option.not_isSome_iff_eq_none] at unreserved
      split at ran
      · cases ran
        exact .changed rfl found .fails rfl rfl
      split at ran <;> cases ran
      · exact .changed rfl found .fails rfl rfl
      · exact .changed rfl found (.reserves unreserved) rfl rfl
    | opCheck id taken =>
      simp only [step, opCheck] at ran
      split at ran
      case h_2 => cases ran
      next kind held found =>
      split at ran <;> cases ran
      · exact .changed rfl found .fails rfl rfl
      · exact .changed rfl found .passes rfl rfl
    | opPin id gup =>
      simp only [step, opPin] at ran
      split at ran
      case h_2 => cases ran
      next kind held found =>
      split at ran <;> cases ran
      · exact .changed rfl found .fails rfl rfl
      · exact .changed rfl found .pins rfl rfl
    | opWrite id nomem =>
      simp only [step, opWrite] at ran
      split at ran
      case h_2 => cases ran
      next kind held frames found =>
      split at ran <;> cases ran <;> exact .changed rfl found .fails rfl rfl
    | opEnd id =>
      simp only [step, opEnd] at ran
      split at ran
      next found =>
        cases ran
        exact .changed rfl found .releases rfl rfl
      next found =>
        cases ran
        exact .ended rfl found rfl rfl
      · cases ran
    | _ => cases own

end Vmctx.Custody
