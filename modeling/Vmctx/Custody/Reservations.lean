import Vmctx.Custody.Step
/-!
# Reservations

A reservation is a recall ticket, a page of a local operation or a transfer ticket with its guard.
`Holds` says what the owners believe they have reserved and `table` what the `recalls` table says.
`Agreed` states that the two agree, and it is kept by every section: a section leaves both alone,
enters a reservation where the table has none, or removes one it holds.
-/

namespace Vmctx.Custody

open Kernel Function

def Kernel.Holds (k : Kernel) : Holder → Page → Prop
  | .recallTicket id, p => ∃ t, k.recalls id = some t ∧ t.page = p
  | .guard id, p => ∃ op, k.ops id = some op ∧ p ∈ op.held
  | .transfer id, p => ∃ t, k.transfers id = some t ∧ t.page = p ∧ t.guarded = true

def Kernel.table (k : Kernel) (p : Page) : Option Holder := (k.pages p).entry.map (·.holder)

def Kernel.Agreed (k : Kernel) : Prop := ∀ p h, k.table p = some h ↔ k.Holds h p

def Kernel.owners (k : Kernel) :
    (Nat → Option RecallTicket) × (Nat → Option LocalOp) × (Nat → Option Transfer) :=
  (k.recalls, k.ops, k.transfers)

def Transfer.reserves (t : Transfer) : Page × Bool := (t.page, t.guarded)

section Holding

variable {k k' : Kernel} {id : Nat} {h : Holder} {p : Page}

theorem holds_recall {r : Option RecallTicket}
    (owners : k'.owners = (update k.recalls id r, k.ops, k.transfers)) :
    k'.Holds h p ↔ if h = .recallTicket id then ∃ t, r = some t ∧ t.page = p else k.Holds h p := by
  simp only [Kernel.owners, Prod.mk.injEq] at owners
  obtain ⟨recalls, ops, transfers⟩ := owners
  cases h with
  | recallTicket other => by_cases here : other = id <;> simp [Holds, recalls, here]
  | guard other => simp [Holds, ops]
  | transfer other => simp [Holds, transfers]

theorem holds_setRecall {t t' : RecallTicket} (found : k.recalls id = some t)
    (owners : k'.owners = (update k.recalls id (some t'), k.ops, k.transfers))
    (same : t'.page = t.page) : k'.Holds h p ↔ k.Holds h p := by
  rw [holds_recall owners]
  split
  next here => simp [here, Holds, found, same]
  next => rfl

theorem holds_addRecall {t : RecallTicket} (fresh : k.recalls id = none)
    (owners : k'.owners = (update k.recalls id (some t), k.ops, k.transfers)) :
    k'.Holds h p ↔ (h = .recallTicket id ∧ p = t.page) ∨ k.Holds h p := by
  rw [holds_recall owners]
  split
  next here => simp [here, Holds, fresh, eq_comm]
  next here => simp [here]

theorem holds_dropRecall (owners : k'.owners = (update k.recalls id none, k.ops, k.transfers)) :
    k'.Holds h p ↔ k.Holds h p ∧ h ≠ .recallTicket id := by
  rw [holds_recall owners]
  split
  next here => simp [here]
  next here => simp [here]

variable {op op' : LocalOp} {t t' : Transfer}

theorem holds_op {o : Option LocalOp}
    (owners : k'.owners = (k.recalls, update k.ops id o, k.transfers)) :
    k'.Holds h p ↔ if h = .guard id then ∃ op, o = some op ∧ p ∈ op.held else k.Holds h p := by
  simp only [Kernel.owners, Prod.mk.injEq] at owners
  obtain ⟨recalls, ops, transfers⟩ := owners
  cases h with
  | recallTicket other => simp [Holds, recalls]
  | guard other => by_cases here : other = id <;> simp [Holds, ops, here]
  | transfer other => simp [Holds, transfers]

theorem holds_setOp (found : k.ops id = some op)
    (owners : k'.owners = (k.recalls, update k.ops id (some op'), k.transfers))
    (same : op'.held = op.held) : k'.Holds h p ↔ k.Holds h p := by
  rw [holds_op owners]
  split
  next here => simp [here, Holds, found, same]
  next => rfl

theorem holds_growOp {q : Page} (found : k.ops id = some op)
    (owners : k'.owners = (k.recalls, update k.ops id (some op'), k.transfers))
    (grown : op'.held = q :: op.held) : k'.Holds h p ↔ (h = .guard id ∧ p = q) ∨ k.Holds h p := by
  rw [holds_op owners]
  split
  next here => simp [here, Holds, found, grown]
  next here => simp [here]

theorem holds_shrinkOp {q : Page} (found : k.ops id = some op) (once : op.held.Nodup)
    (owners : k'.owners = (k.recalls, update k.ops id (some op'), k.transfers))
    (shrunk : op.held = q :: op'.held) :
    k'.Holds h p ↔ k.Holds h p ∧ ¬ (h = .guard id ∧ p = q) := by
  rw [holds_op owners]
  split
  next here =>
    rw [shrunk, List.nodup_cons] at once
    by_cases same : p = q
    · simp [here, same, once.1]
    · simp [here, Holds, found, shrunk, same]
  next here => simp [here]

theorem holds_emptyOp {op : Option LocalOp} (before : ∀ op, k.ops id = some op → op.held = [])
    (after : ∀ op', op = some op' → op'.held = [])
    (owners : k'.owners = (k.recalls, update k.ops id op, k.transfers)) :
    k'.Holds h p ↔ k.Holds h p := by
  rw [holds_op owners]
  split
  next here =>
    subst here
    constructor
    · rintro ⟨op', same, member⟩
      rw [after op' same] at member
      cases member
    · rintro ⟨op', same, member⟩
      rw [before op' same] at member
      cases member
  next => rfl

theorem holds_transfer {o : Option Transfer}
    (owners : k'.owners = (k.recalls, k.ops, update k.transfers id o)) :
    k'.Holds h p ↔ if h = .transfer id then ∃ t, o = some t ∧ t.reserves = (p, true)
      else k.Holds h p := by
  simp only [Kernel.owners, Prod.mk.injEq] at owners
  obtain ⟨recalls, ops, transfers⟩ := owners
  cases h with
  | recallTicket other => simp [Holds, recalls]
  | guard other => simp [Holds, ops]
  | transfer other =>
    by_cases here : other = id <;> simp [Holds, transfers, here, Transfer.reserves]

theorem holds_setTransfer (found : k.transfers id = some t)
    (owners : k'.owners = (k.recalls, k.ops, update k.transfers id (some t')))
    (same : t'.reserves = t.reserves) : k'.Holds h p ↔ k.Holds h p := by
  simp only [Transfer.reserves, Prod.mk.injEq] at same
  rw [holds_transfer owners]
  split
  next here => simp [here, Holds, found, same, Transfer.reserves]
  next => rfl

theorem holds_guardTransfer (found : k.transfers id = some t) (bare : t.guarded = false)
    (owners : k'.owners = (k.recalls, k.ops, update k.transfers id (some t')))
    (guards : t'.reserves = (t.page, true)) :
    k'.Holds h p ↔ (h = .transfer id ∧ p = t.page) ∨ k.Holds h p := by
  rw [holds_transfer owners]
  split
  next here => simp [here, Holds, found, bare, guards, eq_comm (a := p)]
  next here => simp [here]

theorem holds_bareTransfer {t : Option Transfer} (bare : ∀ t', t = some t' → t'.guarded = false)
    (owners : k'.owners = (k.recalls, k.ops, update k.transfers id t)) :
    k'.Holds h p ↔ k.Holds h p ∧ h ≠ .transfer id := by
  rw [holds_transfer owners]
  split
  next here =>
    simp only [here, ne_eq, not_true_eq_false, and_false, iff_false]
    rintro ⟨t', same, guarded⟩
    rw [Transfer.reserves, bare t' same] at guarded
    cases guarded
  next here => simp [here]

end Holding

def PageState.core (s : PageState) : PageState := { s with frame := none }

def Act.erases (a : Act) (p : Page) : Prop :=
  match a with
  | .erase mm first last => p.mm = mm ∧ first ≤ p.idx ∧ p.idx ≤ last
  | _ => False

def Act.zaps (a : Act) (p : Page) : Prop :=
  match a with
  | .zap mm first last => p.mm = mm ∧ first ≤ p.idx ∧ p.idx ≤ last
  | _ => False

inductive Writes (k : Kernel) (p : Page) : Act → PgRec → Writer → Prop
  | claim {task : Nat} {mayWait nomem : Bool} (idle : k.faults task = none)
      (unreserved : (k.pages p).entry = none) (quiet : (k.pages p).record.inFlight = false) :
      Writes k p (.claim task p mayWait nomem) ⟨.claim, 0, (k.pages p).record.gen⟩
        (.fault (k.episodes + 1))
  | land {task : Nat} {action : Action} {fault : Fault} (outstanding : k.faults task = some fault)
      (page : fault.page = p) (claimed : fault.claimed = true)
      (unreserved : (k.pages p).entry = none) (standing : (k.pages p).record.state = .claim) :
      Writes k p (.land task action) ⟨landTo fault action, 0, (k.pages p).record.gen⟩
        (.fault fault.episode)
  | op {id : Nat} {nomem : List Page} {gen : UInt32}
      (held : (k.pages p).entry = some ⟨.guard id, false⟩) :
      Writes k p (.opWrite id nomem) ⟨.home, 0, gen⟩ (.guard id)
  | pgset {state : PgState} {gen : UInt32} {nomem : Bool}
      (unreserved : (k.pages p).entry = none)
      (quiet : state = .claim → (k.pages p).record.inFlight = false) :
      Writes k p (.pgset p state gen nomem) ⟨state, 0, gen⟩ .pgset
  | pgack {sum : UInt16} (unreserved : (k.pages p).entry = none)
      (handed : (k.pages p).record.state = .transit) :
      Writes k p (.pgack p sum) ⟨.remote, 0, (k.pages p).record.gen⟩ .pgack
  | shareClaim {id : Nat} {nomem : Bool} {t : Transfer} {record : PgRec} {sv : Served}
      (ticket : k.transfers id = some t) (page : t.page = p) (at_ : t.pc = .sharing record sv)
      (held : (k.pages p).entry = some ⟨.transfer id, false⟩) (read : (k.pages p).record = record) :
      Writes k p (.captureClaim id nomem) ⟨.claim, 0, record.gen⟩ (.transfer id)
  | shareSettle {id : Nat} {copy : Copy} {t : Transfer} {record claim r : PgRec} {sv : Served}
      (ticket : k.transfers id = some t) (page : t.page = p)
      (at_ : t.pc = .copying record claim sv)
      (held : (k.pages p).entry = some ⟨.transfer id, false⟩)
      (standing : (k.pages p).record = claim)
      (settled : (∃ bytes sum, copy = .page bytes sum ∧ r = ⟨.transit, sum, record.gen⟩) ∨
        ((copy = .absent ∨ ∃ errno, copy = .error errno) ∧ r = record)) :
      Writes k p (.captureShared id copy) r (.transfer id)
  | mark {id : Nat} {nomem cancelled : Bool} {t : Transfer} {sv : Served}
      (ticket : k.transfers id = some t) (page : t.page = p) (at_ : t.pc = .marking sv)
      (held : (k.pages p).entry = some ⟨.transfer id, cancelled⟩)
      (here : (k.pages p).record.state = .home ∨ (k.pages p).record.state = .none) :
      Writes k p (.captureMark id nomem) ⟨.transit, 0, (k.pages p).record.gen⟩ (.transfer id)
  | take {id : Nat} {copy : Copy} {cancelled : Bool} {t : Transfer} {state : PgState} {sv : Served}
      (ticket : k.transfers id = some t) (page : t.page = p) (at_ : t.pc = .taking state sv)
      (held : (k.pages p).entry = some ⟨.transfer id, cancelled⟩)
      (standing : (k.pages p).record.state = .transit ∧ (k.pages p).record.sum = 0) :
      Writes k p (.captureTake id copy)
        (captureOutcome state sv copy (k.pages p).record.gen).1 (.transfer id)
  | ack {who id mmIdentity idx : Nat} {copied : Bool} {t : Transfer}
      (ticket : k.transfers id = some t) (page : t.page = p) (waiting : t.pc = .idle)
      (grants : t.grants = true) (offered : t.offered = true) (unsettled : t.acknowledged = false)
      (held : (k.pages p).entry = some ⟨.transfer id, false⟩)
      (handed : (k.pages p).record.state = .transit) :
      Writes k p (.transferAck who id mmIdentity idx false copied)
        ⟨.remote, 0, (k.pages p).record.gen⟩ (.transfer id)

inductive Move (k : Kernel) (a : Act) (k' : Kernel) (p : Page) : Prop
  | quiet (page : (k'.pages p).core = (k.pages p).core)
      (holding : ∀ h, k'.Holds h p ↔ k.Holds h p)
  | erased (inRange : a.erases p) (page : (k'.pages p).core = (k.pages p).erase.core)
      (holding : ∀ h, k'.Holds h p ↔ k.Holds h p)
  | wrote {r : PgRec} {who : Writer} (writes : Writes k p a r who)
      (page : (k'.pages p).core = ((k.pages p).write r who).core)
      (holding : ∀ h, k'.Holds h p ↔ k.Holds h p)
  | reserved {h : Holder} (unreserved : (k.pages p).entry = none)
      (by_ : (∃ id nomem, a = .opReserve id nomem ∧ h = .guard id) ∨
        (∃ id nomem, a = .captureGuard id nomem ∧ h = .transfer id ∧
          (k.pages p).record.inFlight = false))
      (page : (k'.pages p).core = ((k.pages p).reserve h).core)
      (holding : ∀ h', k'.Holds h' p ↔ h' = h ∨ k.Holds h' p)
  | released {h : Holder} (held : k.Holds h p)
      (by_ : (∃ id, a = .opEnd id ∧ h = .guard id) ∨
        (a.ofTransfer = true ∧ ∃ id, h = .transfer id))
      (page : (k'.pages p).core = (k.pages p).release.core)
      (holding : ∀ h', k'.Holds h' p ↔ k.Holds h' p ∧ h' ≠ h)
  | recalled {who : Nat} {vma nomem : Bool} (begins : a = .recallBegin who p vma nomem)
      (unreserved : (k.pages p).entry = none) (lent : (k.pages p).record.state = .remote)
      (page : (k'.pages p).core = (((k.pages p).reserve (.recallTicket (k.recallNext + 1))).write
        ⟨.claim, 0, (k.pages p).record.gen⟩ (.recallTicket (k.recallNext + 1))).core)
      (holding : ∀ h', k'.Holds h' p ↔ h' = .recallTicket (k.recallNext + 1) ∨ k.Holds h' p)
  | unlinked {id : Nat} {t : RecallTicket} {landed : Bool} {gen : UInt32}
      (ticket : k.recalls id = some t) (at_ : t.page = p)
      (by_ : a = .recallLand id ∨ a = .recallConsume id ∨ ∃ who, a = .recallExit who id)
      (lands : landed = true → (k.pages p).cancelled (.recallTicket id) = false ∧
        (k.pages p).record.state = .claim ∧ a = .recallLand id)
      (page : (k'.pages p).core = (recallUnlinkPage (k.pages p) id t.prior landed gen).core)
      (holding : ∀ h', k'.Holds h' p ↔ k.Holds h' p ∧ h' ≠ .recallTicket id)

def TransferPc.capturing : TransferPc → Bool
  | .entering => true
  | .sharing .. => true
  | .copying .. => true
  | .marking .. => true
  | .taking .. => true
  | _ => false

def TransferPc.running : TransferPc → Bool
  | .guarding => true
  | .captured .. => true
  | pc => pc.capturing

/-- What the progress of a capture remembers of the record it read: nothing was in flight. -/
def TransferPc.Sound : TransferPc → Prop
  | .sharing record _ => record.inFlight = false
  | .copying record claim _ => record.inFlight = false ∧ claim = ⟨.claim, 0, record.gen⟩
  | .taking state _ => state = .home ∨ state = .none
  | _ => True

def Transfer.succeeded (t : Transfer) : Bool :=
  match t.pc with
  | .idle => t.attempted && t.captureResult.isNone
  | .reading _ => t.attempted && t.captureResult.isNone
  | .captured none _ => true
  | _ => false

/-- What the fields of a ticket say of each other, wherever its owner is. -/
structure Transfer.Formed (t : Transfer) : Prop where
  replying : t.pc = .replying → t.attempted = false
  running : t.pc.running = true → t.attempted = true ∧ t.acknowledged = false ∧
    t.offered = false ∧ t.captureResult = none ∧ t.result = .empty
  unstarted : t.attempted = false → t.guarded = false ∧ t.offered = false ∧
    t.captureResult = none ∧ t.result = .empty
  reading : ∀ read, t.pc = .reading read → t.attempted = true ∧ t.acknowledged = false ∧
    t.offered = true ∧ t.captureResult = none
  dropping : ∀ cancel, t.pc = .dropping cancel → t.acknowledged = true
  sound : t.pc.Sound
  capturing : t.pc.capturing = true → t.guarded = true
  succeeded : t.acknowledged = false → t.succeeded = true → t.guarded = true

structure Kernel.Listing (k : Kernel) : Prop where
  listed : ∀ id, id ∈ k.transferListed → ∃ t, k.transfers id = some t
  listedOnce : k.transferListed.Nodup
  unlisted : ∀ id t, k.transfers id = some t → id ∉ k.transferListed → t.pc = .idle
  counted : k.transferLive = k.transferListed.length
  transferFresh : ∀ id, k.transferNext < id → k.transfers id = none

structure Kernel.Good (k : Kernel) : Prop extends k.Listing where
  agreed : k.Agreed
  distinct : ∀ id op, k.ops id = some op → op.held.Nodup
  covers : ∀ id op, k.ops id = some op → (∀ result, op.pc ≠ .ending result) →
    ∀ p, p ∈ op.kind.pages → p ∈ op.held ∨ p ∈ op.todo
  formed : ∀ id t, k.transfers id = some t → t.Formed
  recallFresh : ∀ id, k.recallNext < id → k.recalls id = none
  opFresh : ∀ id, k.opNext < id → k.ops id = none

section Pages

variable {k k' : Kernel} {a : Act} {p q : Page} {s' : PageState}

theorem Move.idle (pages : k'.pages = k.pages) (holding : ∀ h p, k'.Holds h p ↔ k.Holds h p) :
    Move k a k' p :=
  .quiet (by rw [pages]) fun h => holding h p

theorem Move.at_page (pages : k'.pages = update k.pages q s')
    (elsewhere : ∀ p, p ≠ q → ∀ h, k'.Holds h p ↔ k.Holds h p) (here : Move k a k' q) :
    Move k a k' p := by
  by_cases same : p = q
  · rw [same]
    exact here
  · refine .quiet ?_ (elsewhere p same)
    rw [pages, update_of_ne same]

theorem Move.writes_at {r : PgRec} {who : Writer} (pages : k'.pages = update k.pages q s')
    (core : s'.core = ((k.pages q).write r who).core) (holding : ∀ h p, k'.Holds h p ↔ k.Holds h p)
    (writes : Writes k q a r who) : Move k a k' p := by
  refine Move.at_page pages (fun p _ h => holding h p) (.wrote writes ?_ fun h => holding h q)
  rw [pages, update_self, core]

end Pages

theorem Kernel.Agreed.unheld {k : Kernel} (agreed : k.Agreed) {p : Page}
    (unreserved : (k.pages p).entry = none) (h : Holder) : ¬ k.Holds h p := by
  intro holds
  have named := (agreed p h).mpr holds
  rw [table, unreserved] at named
  cases named

theorem Kernel.Agreed.entry {k : Kernel} (agreed : k.Agreed) {p : Page} {h : Holder}
    (holds : k.Holds h p) : ∃ cancelled, (k.pages p).entry = some ⟨h, cancelled⟩ := by
  have named := (agreed p h).mpr holds
  obtain ⟨entry, found, rfl⟩ := Option.map_eq_some_iff.mp named
  exact ⟨entry.cancelled, found⟩

theorem Kernel.Agreed.entry_live {k : Kernel} (agreed : k.Agreed) {p : Page} {h : Holder}
    (holds : k.Holds h p) (live : (k.pages p).cancelled h = false) :
    (k.pages p).entry = some ⟨h, false⟩ := by
  obtain ⟨cancelled, found⟩ := agreed.entry holds
  cases cancelled with
  | false => exact found
  | true => simp [PageState.cancelled, found] at live

end Vmctx.Custody
