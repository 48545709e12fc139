import Vmctx.Custody.Poke
/-!
# Calls and the pages they hold

A page a local operation holds keeps its record and its reservation until the operation's own last
sections, unless it is erased, and then its reservation is cancelled. So a call's history fits its
operation at every point: its reservations are cancelled exactly when the page was erased since, a
write past its check holds only pages of this side, and frames stay mapped where they were pinned
as long as no page is unmapped whose reservation is in force.
-/

namespace Vmctx.Custody

open Kernel Function List

variable {k k' : Kernel} {a : Act} {reply : Reply} {p : Page} {id : Nat}

/-! What a section does to the frame of a page. -/

section Frames

variable {q : Page} {s' : PageState}

theorem frame_update (pages : k'.pages = update k.pages q s')
    (same : s'.frame = (k.pages q).frame) : (k'.pages p).frame = (k.pages p).frame := by
  rw [pages, update_apply]
  split
  · next here => rw [same, here]
  · rfl

theorem frame_released {guarded : Bool} (pages : k'.pages = if guarded then
    update k.pages q (k.pages q).release else k.pages) :
    (k'.pages p).frame = (k.pages p).frame := by
  cases guarded with
  | true => exact frame_update pages rfl
  | false => rw [pages, if_neg (by decide)]

@[simp] theorem recallUnlinkPage_frame (s : PageState) (id : Nat) (prior : PgRec) (landed : Bool)
    (gen : UInt32) : (recallUnlinkPage s id prior landed gen).frame = s.frame := by
  unfold recallUnlinkPage
  split <;> rfl

@[simp] theorem store_frame (s : PageState) (r : PgRec) (who : Writer) (nomem : Bool) :
    (s.store r who nomem).frame = s.frame := by
  unfold PageState.store
  split <;> rfl

inductive FrameMove (k : Kernel) (a : Act) (k' : Kernel) (p : Page) : Prop
  | kept (same : (k'.pages p).frame = (k.pages p).frame)
  | zapped (inRange : a.zaps p)
  | populated (empty : (k.pages p).frame = none)
  | recalled {id : Nat} (holds : k.Holds (.recallTicket id) p)
  | guarded {id : Nat} {op : LocalOp} (found : k.ops id = some op) (member : p ∈ op.held)
      (early : op.pc = .reserving ∨ op.pc = .checked)
  | taken {id : Nat} (holds : k.Holds (.transfer id) p)

end Frames

variable {op op' : LocalOp} {birth frame : Nat} {frames : List Nat} {c : Call}
  {held todo : List Page} {kind : OpKind} {e : Entry}

theorem Kernel.Good.op_holds (good : k.Good) {id : Nat} {p : Page} (found : k.ops id = some op)
    (going : ∀ result, op.pc ≠ .ending result) (done : op.todo = []) (own : p ∈ op.kind.pages) :
    p ∈ op.held := by
  rcases good.covers id op found going p own with member | member
  · exact member
  · rw [done] at member
    cases member

theorem op_frames {p : Page} (good : k.Good) (own : a.ofOp = true)
    (ran : step k a = some (k', reply)) : FrameMove k a k' p := by
  cases a with
  | opBegin =>
    cases ran
    exact .kept rfl
  | opReserve id nomem =>
    simp only [step, opReserve, opFail] at ran
    (repeat' split at ran) <;> cases ran <;>
      first
      | exact .kept rfl
      | exact .kept (frame_update rfl rfl)
  | opCheck id taken =>
    simp only [step, opCheck] at ran
    split at ran
    case h_2 => cases ran
    next kind held found =>
    have frames : FrameMove k (.opCheck id taken) (k.opTakes kind taken) p := by
      by_cases takes : taken = true ∧ kind.takes p = true
      · refine FrameMove.guarded found (good.op_holds found (by simp) rfl ?_) (.inl rfl)
        cases kind <;> simp_all [OpKind.takes, OpKind.pages]
      · apply FrameMove.kept
        simp only [opTakes, if_neg takes]
    split at ran <;> cases ran <;> cases frames with
    | kept same => exact .kept same
    | zapped inRange => exact .zapped inRange
    | populated empty => exact .populated empty
    | recalled holds => exact .recalled holds
    | guarded found member early => exact .guarded found member early
    | taken holds => exact .taken holds
  | opPin id gup =>
    simp only [step, opPin, opFail] at ran
    split at ran
    case h_2 => cases ran
    next kind held found =>
    split at ran <;> cases ran
    · exact .kept rfl
    next frames =>
    cases mapped : (kind.pages.zip frames).lookup p with
    | none =>
      apply FrameMove.kept
      simp [mapped]
    | some frame =>
      obtain ⟨before, after, split, -⟩ := lookup_eq_some_iff.mp mapped
      have member : (p, frame) ∈ kind.pages.zip frames := by
        rw [split]
        exact mem_append_right _ (mem_cons_self ..)
      have own : p ∈ kind.pages := (of_mem_zip member).1
      exact .guarded found (good.op_holds found (by simp) rfl own) (.inr rfl)
  | opWrite id nomem =>
    simp only [step, opWrite, opFail] at ran
    split at ran
    case h_2 => cases ran
    split at ran <;> cases ran
    · exact .kept rfl
    · apply FrameMove.kept
      simp only [setOp_pages]
      split <;> simp
  | opEnd id =>
    simp only [step, opEnd] at ran
    split at ran <;> cases ran
    · exact .kept (frame_update rfl rfl)
    · exact .kept rfl
  | _ => cases own

theorem recall_frames {p : Page} (own : a.ofRecall = true) (ran : step k a = some (k', reply)) :
    FrameMove k a k' p := by
  cases a with
  | recallBegin who q vma nomem =>
    simp only [step, recallBegin] at ran
    (repeat' split at ran) <;> cases ran <;>
      first
      | exact .kept rfl
      | exact .kept (frame_update rfl rfl)
  | recallFinish who id idx op =>
    simp only [step, recallFinish] at ran
    (repeat' split at ran) <;> cases ran <;> exact .kept rfl
  | recallPin id gup =>
    simp only [step, recallPin] at ran
    split at ran
    · cases ran
    next t ticket =>
    split at ran
    case h_2 => cases ran
    split at ran
    · cases ran
      exact .kept rfl
    split at ran <;> cases ran
    · exact .kept rfl
    by_cases here : t.page = p
    · exact .recalled ⟨t, ticket, here⟩
    · apply FrameMove.kept
      simp [update_of_ne (Ne.symm here)]
  | recallLand | recallConsume | recallExit =>
    simp only [step, recallLand, recallConsume, recallExit] at ran
    (repeat' split at ran) <;> cases ran <;> exact .kept (frame_update rfl (by simp))
  | _ => cases own

theorem transfer_frames {p : Page} (good : k.Good) (own : a.ofTransfer = true)
    (ran : step k a = some (k', reply)) : FrameMove k a k' p := by
  cases step_tickets ran with
  | untouched idle =>
    rcases idle with other | same
    · rw [own] at other
      cases other
    · rw [same]
      exact .kept rfl
  | begun _ pages =>
    apply FrameMove.kept
    rw [pages]
  | @changed id t t' ticket s' change pages =>
    have taking (at_ : t.pc.capturing = true) : FrameMove k a k' p := by
      by_cases here : t.page = p
      · rw [← here]
        have holds : k.Holds (.transfer id) t.page :=
          ⟨t, ticket, rfl, (good.formed id t ticket).capturing at_⟩
        exact .taken holds
      · apply FrameMove.kept
        rw [pages, update_of_ne (Ne.symm here)]
    cases change with
    | takeLost at_ | takes at_ => exact taking (by rw [at_]; rfl)
    | drops _ page =>
      refine .kept (frame_update pages ?_)
      rw [page]
      split <;> rfl
    | _ => exact .kept (frame_update pages rfl)
  | freed _ _ pages | disposed _ _ pages => exact .kept (frame_released pages)
  | exited _ exits =>
    simp only [transferOwnerExit] at exits
    split at exits <;> cases exits
    exact .kept rfl

theorem step_frames {p : Page} (good : k.Good) (ran : step k a = some (k', reply)) :
    FrameMove k a k' p := by
  cases a with
  | erase =>
    cases ran
    apply FrameMove.kept
    dsimp only
    split <;> rfl
  | zap mm first last =>
    cases ran
    by_cases inRange : p.mm = mm ∧ first ≤ p.idx ∧ p.idx ≤ last
    · exact .zapped inRange
    · exact .kept (if_neg inRange)
  | populate q frame =>
    simp only [step, populate] at ran
    split at ran <;> cases ran
    next empty =>
    by_cases here : p = q
    · rw [← here] at empty
      exact .populated empty
    · apply FrameMove.kept
      simp [update_of_ne here]
  | store | accessFail =>
    cases ran
    exact .kept rfl
  | claim | land | pgset | pgack =>
    simp only [step, pgrecClaim, pgrecLand, ctlPgset, ctlPgack] at ran
    (repeat' split at ran) <;> cases ran <;>
      first
      | exact .kept rfl
      | exact .kept (frame_update rfl rfl)
      | exact .kept (frame_update rfl (by simp))
  | _ =>
    first
    | exact recall_frames rfl ran
    | exact op_frames good rfl ran
    | exact transfer_frames good rfl ran

/-! What a section does to a page that a local operation holds. -/

/-- The reservation of a page since it had been erased `birth` times: cancelled if it was erased
since. -/
def Marked (s : PageState) (id birth : Nat) : Prop :=
  birth ≤ s.erasures ∧ s.entry = some ⟨.guard id, decide (s.erasures ≠ birth)⟩

/-- A held page is left alone, erased, or written or released by its operation. -/
inductive GuardedMove (k : Kernel) (a : Act) (k' : Kernel) (p : Page) (id : Nat) : Prop
  | quiet (page : (k'.pages p).core = (k.pages p).core)
  | erased (inRange : a.erases p) (page : k'.pages p = (k.pages p).erase)
  | wrote {nomem : List Page} {gen : UInt32} (own : a = .opWrite id nomem)
      (page : (k'.pages p).core = ((k.pages p).write ⟨.home, 0, gen⟩ (.guard id)).core)
  | released (own : a = .opEnd id) (gone : ¬ k'.Holds (.guard id) p)

theorem guarded_moves (good : k.Good) (holds : k.Holds (.guard id) p)
    (ran : step k a = some (k', reply)) : GuardedMove k a k' p id := by
  obtain ⟨cancelled, entry⟩ := good.agreed.entry holds
  have named : k.table p = some (.guard id) := by simp [table, entry]
  have only (h : Holder) (other : k.Holds h p) : h = .guard id := by
    rw [← good.agreed, named, Option.some.injEq] at other
    exact other.symm
  cases step_moves good ran p with
  | quiet page => exact .quiet page
  | erased inRange => exact .erased inRange (erases_page inRange ran)
  | wrote writes page =>
    cases writes with
    | op held =>
      rw [entry, Option.some.injEq, Entry.mk.injEq, Holder.guard.injEq] at held
      obtain ⟨same, -⟩ := held
      subst same
      exact .wrote rfl page
    | _ => simp_all
  | reserved unreserved | recalled _ unreserved =>
    rw [entry] at unreserved
    cases unreserved
  | released held by_ page holding =>
    have same := only _ held
    rcases by_ with ⟨id', ends, names⟩ | ⟨-, id', names⟩
    · rw [same, Holder.guard.injEq] at names
      subst names
      refine .released ends ?_
      rw [holding]
      exact fun still => still.2 same.symm
    · rw [same] at names
      cases names
  | unlinked ticket at_ =>
    have same := only (.recallTicket _) ⟨_, ticket, at_⟩
    cases same

theorem marked_next (good : k.Good) (holds : k.Holds (.guard id) p) (still : k'.Holds (.guard id) p)
    (marked : Marked (k.pages p) id birth) (ran : step k a = some (k', reply)) :
    Marked (k'.pages p) id birth := by
  obtain ⟨since, entry⟩ := marked
  cases guarded_moves good holds ran with
  | quiet page | wrote _ page =>
    obtain ⟨-, entry', -, erasures⟩ := PageState.core_eq.mp page
    rw [Marked, entry', erasures]
    exact ⟨since, entry⟩
  | erased _ page =>
    have later : (k.pages p).erasures + 1 ≠ birth := by omega
    rw [Marked, page]
    simp only [PageState.erase, entry, Option.map_some, later, decide_true, ne_eq,
      not_false_eq_true, and_true]
    omega
  | released _ gone => exact absurd still gone

def PgState.here (state : PgState) : Bool := state == .home || state == .none

theorem here_next (good : k.Good) (holds : k.Holds (.guard id) p)
    (still : k'.Holds (.guard id) p) (here : (k.pages p).record.state.here = true)
    (ran : step k a = some (k', reply)) : (k'.pages p).record.state.here = true := by
  cases guarded_moves good holds ran with
  | quiet page => rw [(PageState.core_eq.mp page).1, here]
  | erased _ page =>
    rw [page]
    rfl
  | wrote _ page =>
    rw [(PageState.core_eq.mp page).1]
    rfl
  | released _ gone => exact absurd still gone

theorem pinned_next (good : k.Good) (found : k.ops id = some op) (at_ : op.pc = .pinned frames)
    (marked : Marked (k.pages p) id birth)
    (mapped : (k.pages p).erasures = birth → (k.pages p).frame = some frame)
    (unzapped : a.zaps p → (k.pages p).entry ≠ some ⟨.guard id, false⟩)
    (ran : step k a = some (k', reply)) (alive : (k'.pages p).erasures = birth) :
    (k'.pages p).frame = some frame := by
  obtain ⟨since, entry⟩ := marked
  have named : k.table p = some (.guard id) := by simp [table, entry]
  have unerased : ¬ a.erases p := by
    intro inRange
    have counted := congrArg PageState.erasures (erases_page inRange ran)
    simp only [PageState.erase] at counted
    omega
  have before : (k.pages p).erasures = birth := by
    rw [← step_erasures good ran unerased]
    exact alive
  have mapped := mapped before
  cases step_frames (p := p) good ran with
  | kept same => rw [same, mapped]
  | zapped inRange =>
    rw [before, decide_eq_false (not_not_intro rfl)] at entry
    exact absurd entry (unzapped inRange)
  | populated empty =>
    rw [empty] at mapped
    cases mapped
  | recalled holds | taken holds =>
    rw [← good.agreed, named, Option.some.injEq] at holds
    cases holds
  | guarded other held early =>
    have owns : k.Holds (.guard _) p := ⟨_, other, held⟩
    rw [← good.agreed, named, Option.some.injEq, Holder.guard.injEq] at owns
    rw [← owns, found, Option.some.injEq] at other
    rw [← other, at_] at early
    rcases early with early | early <;> cases early

theorem step_other_op (ran : step k a = some (k', reply)) (other : a.opId ≠ some id)
    (old : (∃ kind, a = .opBegin kind) → id ≠ k.opNext + 1) : k'.ops id = k.ops id := by
  cases step_ops ran with
  | untouched _ ops => rw [ops]
  | @begun kind begins ops =>
    rw [ops]
    exact update_of_ne (old ⟨kind, begins⟩) ..
  | changed own _ _ ops =>
    rw [ops, update_of_ne]
    rintro rfl
    exact other own
  | ended ends _ ops =>
    rw [ops, update_of_ne]
    rintro rfl
    exact other (by rw [ends]; rfl)

/-! How a call and its operation fit together. -/

def OpKind.pokes : OpKind → Bool
  | .poke .. => true
  | _ => false

def OpPc.passed : OpPc → Bool
  | .checked => true
  | .pinned _ => true
  | _ => false

def OpPc.early : OpPc → Bool
  | .reserving => true
  | .checked => true
  | _ => false

/-- What a call's history and its operation say of each other and of the pages. -/
structure Call.Fits (c : Call) (k : Kernel) (id : Nat) (op : LocalOp) : Prop where
  asked : c.asked = some op.kind
  running : c.returned = none
  own : ∀ p, p ∈ op.held ∨ p ∈ op.todo → p ∈ op.kind.pages
  marked : ∀ p, p ∈ op.held → Marked (k.pages p) id (c.births p)
  early : op.pc.early = true → c.pins = []
  uncopied : (∀ result, op.pc ≠ .ending result) → c.copies = 0
  complete : op.pc.passed = true → op.todo = []
  here : op.kind.pokes = true → op.pc.passed = true → ∀ p, p ∈ op.held →
    (k.pages p).record.state.here = true ∧ (c.seen p).here = true
  pinned : ∀ frames, op.pc = .pinned frames → c.pins = frames ∧
    frames.length = op.kind.pages.length ∧
    ∀ p frame, (p, frame) ∈ op.kind.pages.zip frames → (k.pages p).erasures = c.births p →
      (k.pages p).frame = some frame
  ending : ∀ result, op.pc = .ending result → op.kind.pokes = true →
    c.copies = if result.isNone then 1 else 0

theorem Call.Fits.holds (fits : c.Fits k id op) (good : k.Good) (found : k.ops id = some op)
    (passed : op.pc.passed = true) (own : p ∈ op.kind.pages) : p ∈ op.held := by
  refine good.op_holds found ?_ (fits.complete passed) own
  intro result at_
  rw [at_] at passed
  cases passed

theorem Call.Fits.other (fits : c.Fits k id op) (good : k.Good) (found : k.ops id = some op)
    (still : k'.ops id = some op) (unzapped : ∀ frames, op.pc = .pinned frames → ∀ p, a.zaps p →
      (k.pages p).entry ≠ some ⟨.guard id, false⟩) (ran : step k a = some (k', reply)) :
    c.Fits k' id op where
  asked := fits.asked
  running := fits.running
  own := fits.own
  marked p member :=
    marked_next good ⟨op, found, member⟩ ⟨op, still, member⟩ (fits.marked p member) ran
  early := fits.early
  uncopied := fits.uncopied
  complete := fits.complete
  here poke passed p member := by
    obtain ⟨here, seen⟩ := fits.here poke passed p member
    exact ⟨here_next good ⟨op, found, member⟩ ⟨op, still, member⟩ here ran, seen⟩
  pinned frames at_ := by
    obtain ⟨pins, length, mapped⟩ := fits.pinned frames at_
    refine ⟨pins, length, ?_⟩
    intro p frame pair alive
    have passed : op.pc.passed = true := by
      rw [at_]
      rfl
    have member := fits.holds good found passed (of_mem_zip pair).1
    exact pinned_next good found at_ (fits.marked p member) (mapped p frame pair)
      (unzapped frames at_ p) ran alive
  ending := fits.ending

theorem Call.Fits.at_end {result : Option Errno} (asked : c.asked = some kind)
    (running : c.returned = none) (own : ∀ p, p ∈ held ∨ p ∈ todo → p ∈ kind.pages)
    (marked : ∀ p, p ∈ held → Marked (k.pages p) id (c.births p))
    (copied : kind.pokes = true → c.copies = if result.isNone then 1 else 0) :
    c.Fits k id ⟨kind, todo, held, .ending result⟩ where
  asked := asked
  running := running
  own := own
  marked := marked
  early late := by cases late
  uncopied running := absurd rfl (running result)
  complete late := by cases late
  here _ late := by cases late
  pinned _ late := by cases late
  ending result' at_ poke := by
    cases at_
    exact copied poke

theorem Call.Fits.stops {c' : Call} {errno : Errno} (fits : c.Fits k id op)
    (going : ∀ result, op.pc ≠ .ending result) (pages : k'.pages = k.pages)
    (same : c'.asked = c.asked ∧ c'.returned = c.returned ∧ c'.copies = c.copies)
    (births : ∀ p, p ∈ op.held → c'.births p = c.births p) :
    c'.Fits k' id { op with pc := .ending (some errno) } := by
  obtain ⟨asked, returned, copies⟩ := same
  refine .at_end (asked.trans fits.asked) (returned.trans fits.running) fits.own ?_ ?_
  · intro p member
    rw [pages, births p member]
    exact fits.marked p member
  · intro _
    exact copies.trans (fits.uncopied going)

theorem Call.reserves_old (c : Call) (reserved : (k.pages p).entry = some e) :
    (c.reserves k k').births p = c.births p := by
  simp [Call.reserves, reserved]

theorem Call.reserves_new (c : Call) (before : (k.pages p).entry = none)
    (after : (k'.pages p).entry = some e) : (c.reserves k k').births p = (k.pages p).erasures := by
  simp [Call.reserves, before, after]

theorem Call.Fits.reserve {nomem : Bool} (fits : c.Fits k id op) (found : k.ops id = some op)
    (ran : k.opReserve id nomem = some (k', reply)) (found' : k'.ops id = some op') :
    (c.reserves k k').Fits k' id op' := by
  have old (q : Page) (member : q ∈ op.held) : (c.reserves k k').births q = c.births q :=
    c.reserves_old (fits.marked q member).2
  have failed {errno : Errno} (going : ∀ result, op.pc ≠ .ending result)
      (done : k.opFail id op errno = some (k', reply)) : (c.reserves k k').Fits k' id op' := by
    cases done
    simp only [setOp_ops, update_self, Option.some.injEq] at found'
    rw [← found']
    exact fits.stops going rfl ⟨rfl, rfl, rfl⟩ old
  simp only [opReserve] at ran
  split at ran
  case h_2 => cases ran
  next kind p rest held at_ =>
  rw [found, Option.some.injEq] at at_
  subst at_
  have going : ∀ result, OpPc.reserving ≠ .ending result := by
    intro result same
    cases same
  split at ran
  · exact failed going ran
  next unreserved =>
  rw [Option.not_isSome_iff_eq_none] at unreserved
  split at ran
  · exact failed going ran
  split at ran
  · exact failed going ran
  have after : (k'.pages p).entry = some ⟨.guard id, false⟩ ∧
      (k'.pages p).erasures = (k.pages p).erasures := by
    cases ran
    simp [PageState.reserve]
  have elsewhere (q : Page) (apart : q ≠ p) : k'.pages q = k.pages q := by
    cases ran
    simp [update_of_ne apart]
  have op' : op' = ⟨kind, rest, p :: held, .reserving⟩ := by
    cases ran
    simpa using found'.symm
  subst op'
  refine ⟨fits.asked, fits.running, ?_, ?_, fun _ => fits.early rfl, fun _ => fits.uncopied going,
    ?_, ?_, ?_, ?_⟩
  · intro q member
    apply fits.own
    simpa [or_assoc, or_left_comm, or_comm] using member
  · intro q member
    by_cases here : q = p
    · subst here
      have birth := c.reserves_new unreserved after.1
      rw [Marked, birth, after.1, after.2]
      simp
    · have held : q ∈ held := by simpa [here] using member
      rw [old q held, elsewhere q here]
      exact fits.marked q held
  · intro late
    cases late
  · intro _ late
    cases late
  · intro _ late
    cases late
  · intro _ late
    cases late

theorem opRefusal_poke {pc : OpPc} (poke : kind.pokes = true) (k : Kernel) :
    (k.opRefusal ⟨kind, todo, held, pc⟩ = none ∧
      ∀ p, p ∈ held → (k.pages p).record.state.here = true) ∨
    k.opRefusal ⟨kind, todo, held, pc⟩ = some (some .EAGAIN) := by
  cases kind with
  | poke mm addr len bytes =>
    simp only [opRefusal]
    split
    · next all =>
      rw [all_eq_true] at all
      exact .inl ⟨rfl, all⟩
    · exact .inr rfl
  | land | take => cases poke

theorem Call.Fits.check {taken : Bool} (fits : c.Fits k id op) (found : k.ops id = some op)
    (ran : k.opCheck id taken = some (k', reply)) (found' : k'.ops id = some op') :
    { c with seen := fun p => (k.pages p).record.state }.Fits k' id op' := by
  simp only [opCheck] at ran
  split at ran
  case h_2 => cases ran
  next kind held at_ =>
  rw [found, Option.some.injEq] at at_
  subst at_
  have going : ∀ result, OpPc.reserving ≠ .ending result := by
    intro result same
    cases same
  have core (p : Page) : (k'.pages p).core = (k.pages p).core := by
    split at ran <;> cases ran <;> rfl
  have marked (p : Page) (member : p ∈ held) : Marked (k'.pages p) id (c.births p) := by
    obtain ⟨-, entry, -, erasures⟩ := PageState.core_eq.mp (core p)
    rw [Marked, entry, erasures]
    exact fits.marked p member
  split at ran
  · next result refused =>
    have op' : op' = ⟨kind, [], held, .ending result⟩ := by
      cases ran
      simpa using found'.symm
    subst op'
    refine .at_end fits.asked fits.running fits.own marked ?_
    intro poke
    rcases opRefusal_poke poke (k.opTakes kind taken) with ⟨passes, -⟩ | stops
    · rw [passes] at refused
      cases refused
    · rw [stops] at refused
      cases refused
      exact fits.uncopied going
  · next passes =>
    have op' : op' = ⟨kind, [], held, .checked⟩ := by
      cases ran
      simpa using found'.symm
    subst op'
    refine ⟨fits.asked, fits.running, fits.own, marked, fun _ => fits.early rfl,
      fun _ => fits.uncopied going, fun _ => rfl, ?_, ?_, ?_⟩
    · intro poke _ p member
      rcases opRefusal_poke poke (k.opTakes kind taken) with ⟨-, all⟩ | stops
      · have here : (k.pages p).record.state.here = true := all p member
        rw [(PageState.core_eq.mp (core p)).1]
        exact ⟨here, here⟩
      · rw [stops] at passes
        cases passes
    · intro _ late
      cases late
    · intro _ late
      cases late

theorem OpKind.pages_nodup (kind : OpKind) : kind.pages.Nodup := by
  cases kind with
  | land | take => exact nodup_singleton _
  | poke mm addr len bytes =>
    refine List.Nodup.map ?_ nodup_range
    intro i j same
    have idx := congrArg Page.idx same
    simp only at idx
    omega

theorem lookup_zip {pages : List Page} (once : pages.Nodup) (pair : (p, frame) ∈ pages.zip frames) :
    (pages.zip frames).lookup p = some frame := by
  induction pages generalizing frames with
  | nil => cases pair
  | cons q rest ih =>
    cases frames with
    | nil => cases pair
    | cons f others =>
      rw [zip_cons_cons, mem_cons] at pair
      rcases pair with first | later
      · cases first
        simp
      · have apart : p ≠ q := by
          intro same
          rw [same] at later
          exact (nodup_cons.mp once).1 (of_mem_zip later).1
        rw [zip_cons_cons, lookup_cons, beq_false_of_ne apart]
        exact ih (nodup_cons.mp once).2 later

theorem Call.Fits.pin {frames : Except Errno (List Nat)} (fits : c.Fits k id op)
    (found : k.ops id = some op)
    (ran : k.opPin id (Poking.gupResult op.kind.pages.length frames) = some (k', reply))
    (found' : k'.ops id = some op') : { c with pins := Poking.gupPins frames }.Fits k' id op' := by
  generalize result : Poking.gupResult op.kind.pages.length frames = gup at ran
  simp only [opPin] at ran
  split at ran
  case h_2 => cases ran
  next kind held at_ =>
  rw [found, Option.some.injEq] at at_
  subst at_
  have going : ∀ result, OpPc.checked ≠ .ending result := by
    intro result same
    cases same
  split at ran
  · cases ran
    simp only [setOp_ops, update_self, Option.some.injEq] at found'
    subst found'
    exact fits.stops going rfl ⟨rfl, rfl, rfl⟩ fun _ _ => rfl
  next pinned =>
  have exact_ : frames = .ok pinned ∧ pinned.length = kind.pages.length := by
    cases frames with
    | error => cases result
    | ok all =>
      simp only [Poking.gupResult] at result
      split at result <;> cases result
      exact ⟨rfl, ‹_›⟩
  obtain ⟨rfl, length⟩ := exact_
  have core (p : Page) : (k'.pages p).core = (k.pages p).core := by
    cases ran
    simp only [setOp_pages]
    split <;> rfl
  have op' : op' = ⟨kind, [], held, .pinned pinned⟩ := by
    cases ran
    simpa using found'.symm
  subst op'
  refine ⟨fits.asked, fits.running, fits.own, ?_, ?_, fun _ => fits.uncopied going, fun _ => rfl,
    ?_, ?_, ?_⟩
  · intro p member
    obtain ⟨-, entry, -, erasures⟩ := PageState.core_eq.mp (core p)
    rw [Marked, entry, erasures]
    exact fits.marked p member
  · intro late
    cases late
  · intro poke _ p member
    rw [(PageState.core_eq.mp (core p)).1]
    exact fits.here poke rfl p member
  · intro frames at_
    cases at_
    refine ⟨rfl, length, ?_⟩
    intro p frame pair _
    have named := lookup_zip kind.pages_nodup pair
    cases ran
    simp only [setOp_pages, named]
  · intro _ late
    cases late

theorem Call.Fits.write {nomem : List Page} (fits : c.Fits k id op) (good : k.Good)
    (found : k.ops id = some op) (ran : k.opWrite id nomem = some (k', reply))
    (found' : k'.ops id = some op') : (c.writes reply).Fits k' id op' := by
  have stepped : step k (.opWrite id nomem) = some (k', reply) := ran
  simp only [opWrite] at ran
  split at ran
  case h_2 => cases ran
  next kind held frames at_ =>
  rw [found, Option.some.injEq] at at_
  subst at_
  have going : ∀ result, OpPc.pinned frames ≠ .ending result := by
    intro result same
    cases same
  split at ran
  · cases ran
    simp only [setOp_ops, update_self, Option.some.injEq] at found'
    subst found'
    exact fits.stops going rfl ⟨rfl, rfl, rfl⟩ fun _ _ => rfl
  have op' : op' = ⟨kind, [], held, .ending none⟩ := by
    cases ran
    simpa using found'.symm
  subst op'
  have wrote : reply = .wrote := by
    cases ran
    rfl
  subst wrote
  refine .at_end fits.asked fits.running fits.own ?_ ?_
  · intro p member
    exact marked_next good ⟨_, found, member⟩ ⟨_, found', member⟩ (fits.marked p member) stepped
  · intro _
    simp only [Call.writes, fits.uncopied going, Option.isNone_none, if_true]

theorem Call.Fits.release (fits : c.Fits k id op) (good : k.Good) (found : k.ops id = some op)
    (ran : k.opEnd id = some (k', reply)) (found' : k'.ops id = some op') : c.Fits k' id op' := by
  have stepped : step k (.opEnd id) = some (k', reply) := ran
  simp only [opEnd] at ran
  split at ran
  · next kind todo q rest result at_ =>
    rw [found, Option.some.injEq] at at_
    subst at_
    have op' : op' = ⟨kind, todo, rest, .ending result⟩ := by
      cases ran
      simpa using found'.symm
    subst op'
    refine .at_end fits.asked fits.running ?_ ?_ (fits.ending result rfl)
    · intro p member
      apply fits.own
      rcases member with held | todo
      · exact .inl (mem_cons_of_mem _ held)
      · exact .inr todo
    · intro p member
      have held : p ∈ q :: rest := mem_cons_of_mem _ member
      exact marked_next good ⟨_, found, held⟩ ⟨_, found', member⟩ (fits.marked p held) stepped
  · cases ran
    simp at found'
  · cases ran

end Vmctx.Custody
