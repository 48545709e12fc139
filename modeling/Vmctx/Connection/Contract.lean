import Vmctx.Connection.Pending
/-!
# The custody contract of a connection

Along every sequence of calls on one collection, whatever the native results: no ticket is lost, a
delivery is reported only for an acknowledgement that has succeeded, and nothing is settled twice or
after an abandonment. The loop of a connection makes only such calls, and while a ticket is pending
it processes nothing but page requests.
-/

namespace Vmctx.Connection

open Vmctx.System List

variable {w : World} {e : Entry} {log : List Issue}

abbrev Calls := Computed fun (w : World) (c : Call) => (w.call c).map Prod.fst

/-! ## Beginnings -/

variable {address self : Nat} {native : Native} {target : Option MmBinding} {h : Handle}

theorem begin_null {memory : Bool}
    (null : (w.begin self target address memory native).2.entry = none) :
    ∃ new, (w.begin self target address memory native).1.issued = new ++ w.issued ∧
      ∀ i ∈ new, ¬i.control.Succeeds := by
  revert null
  have idle : ∃ new, w.issued = new ++ w.issued ∧ ∀ i ∈ new, ¬i.control.Succeeds :=
    ⟨[], rfl, forall_mem_nil _⟩
  simp only [World.begin]
  split
  · exact fun _ => idle
  · split
    · exact fun _ => idle
    · split
      · exact fun _ => idle
      case h_2 target =>
        split
        · exact fun _ => idle
        · split
          · exact fun _ => idle
          · split
            · exact fun _ => idle
            · obtain ⟨none, unheld⟩ | ⟨c, issued, -, ⟨⟨errno, failed⟩, unheld⟩ | ⟨q, -, held⟩⟩ :=
                begin_cases target.mm address native
              · simp only [unheld, none]
                exact fun _ => idle
              · simp only [unheld, issued]
                refine fun _ => ⟨[⟨some w.fresh, c⟩], rfl, fun i here => ?_⟩
                obtain rfl := mem_singleton.mp here
                rintro ⟨q, success⟩
                cases failed.symm.trans success
              · simp only [held, if_true]
                intro null
                cases null

/-! ## Deliveries -/

def Delivered (log : List Issue) (e : Entry) : Prop :=
  ∃ post i pre, log = post ++ i :: pre ∧ i.entry = some e.id ∧ i.control.op = .ack ∧
    i.control.Done ∧ i.control.mm = e.target.mm ∧ i.control.address = e.transfer.address ∧
    i.control.ticket = e.transfer.ticket ∧
    ∃ j ∈ pre, j.entry = some e.id ∧ j.control.op = .read ∧ j.control.Done ∧
      j.control.mm = e.target.mm ∧ j.control.address = e.transfer.address ∧
      j.control.ticket = e.transfer.ticket

theorem ack_ok (ok : (h.ack native).result = .ok ()) :
    (h.ack native).handle.settled = true ∧ (h.ack native).handle.cancelled = false ∧
      (h.ack native).handle.settlementError = none := by
  revert ok
  simp only [Handle.ack]
  split
  · intro ok
    cases ok
  case isFalse live =>
    have live : h.cancelled = false := by simpa using live
    split
    · intro ok
      cases ok
    · split
      case isTrue settled =>
        cases error : h.settlementError with
        | none => exact fun _ => ⟨settled, live, rfl⟩
        | some errno =>
          intro ok
          cases ok
      · split
        · exact fun _ => ⟨rfl, live, rfl⟩
        · split <;> (intro ok; cases ok)

theorem Known.acknowledged (known : Known log e) (lawful : Lawful log)
    (settled : e.transfer.settled = true) (live : e.transfer.cancelled = false)
    (clean : e.transfer.settlementError = none) : Delivered log e := by
  obtain ⟨i, here, entry, op, done, mm, address, ticket⟩ := known.delivered settled live clean
  obtain ⟨post, pre, rfl⟩ := append_of_mem here
  have permitted := lawful.split
  simp only [Permits, op] at permitted
  obtain ⟨-, -, -, j, before, same, read, did, mm', address', ticket'⟩ := permitted
  exact ⟨post, i, pre, rfl, entry, op, done, mm.trans known.mm, address, ticket,
    j, before, same.trans entry, read, did, (mm'.trans mm).trans known.mm, address'.trans address,
    ticket'.trans ticket⟩

theorem Delivered.append (new : List Issue) (delivered : Delivered log e) :
    Delivered (new ++ log) e := by
  obtain ⟨post, i, pre, rfl, rest⟩ := delivered
  exact ⟨new ++ post, i, pre, (append_assoc ..).symm, rest⟩

theorem Delivered.of_handle (address : h.address = e.transfer.address)
    (ticket : h.ticket = e.transfer.ticket) (delivered : Delivered log { e with transfer := h }) :
    Delivered log e := by
  simpa only [Delivered, address, ticket] using delivered

theorem retire_issued (id : Nat) (h : Handle) (native : Native) :
    ∃ new, (w.retire id h native).1.issued = new ++ w.issued ∧
      ∀ i ∈ new, i.control.op = .forget := by
  have issued : (w.retire id h native).1.issued =
      ((h.forget native).issued.map (Issue.mk (some id))).toList ++ w.issued := by
    simp only [World.retire]
    split <;> rfl
  refine ⟨_, issued, ?_⟩
  obtain ⟨none, -⟩ | ⟨c, some, -, op, -⟩ := forget_cases h native
  · rw [none]
    exact forall_mem_nil _
  · rw [some]
    intro i here
    obtain rfl := mem_singleton.mp here
    exact op

/-- A successful `source_custody_ack`: the very transfer was pending and is delivered, and nothing
has settled it otherwise. -/
theorem World.Good.ack_ok {ticket : Nat} {forget : Native} (good : w.Good)
    (ok : (w.ack self target address ticket native forget).2.result = .ok ()) :
    ∃ e ∈ w.custody.pending, w.custody.find target address ticket = .ok e ∧
      Delivered (w.ack self target address ticket native forget).1.issued e ∧
      ∀ i ∈ (w.ack self target address ticket native forget).1.issued, i.entry = some e.id →
        ¬i.control.Spoils := by
  revert ok
  simp only [World.ack]
  split
  · intro ok
    cases ok
  case h_2 custody thread =>
    obtain ⟨owned, pending, open_, -⟩ := good.owned thread
    split
    · intro ok
      cases ok
    case h_2 e found =>
      obtain ⟨closed, here, -⟩ := Collection.find_ok found
      have named : w.custody.find target address ticket = .ok e := by
        simpa only [Collection.find, pending, open_] using found
      have adapts := ack_adapts (owned.known e here) (owned.open_ closed) native
      have adapted := owned.adapt here adapts
      -- What the acknowledgement itself shows, before the entry is retired.
      have shown (result : (e.transfer.ack native).result = .ok ()) :
          Delivered (({ w with custody := custody } : World).adapt e.id
            (e.transfer.ack native)).issued e ∧
          ∀ i ∈ (({ w with custody := custody } : World).adapt e.id
            (e.transfer.ack native)).issued, i.entry = some e.id → ¬i.control.Spoils := by
        obtain ⟨settled, live, clean⟩ := Connection.ack_ok result
        refine ⟨?_, fun i mem named spoils => ?_⟩
        · exact (adapts.known.acknowledged adapted.lawful settled live clean).of_handle
            adapts.address adapts.ticket
        · obtain cancelled | error := adapts.known.spoiled i mem named spoils
          · cases live.symm.trans cancelled
          · exact error clean
      split
      case isTrue idle =>
        intro result
        cases idle.symm.trans (Connection.ack_ok result).1
      · obtain ⟨new, issued, forgets⟩ := retire_issued
          (w := ({ w with custody := custody } : World).adapt e.id (e.transfer.ack native))
          e.id (e.transfer.ack native).handle forget
        split
        · intro ok
          cases ok
        case h_2 after retired =>
          rw [retired] at issued
          intro result
          obtain ⟨delivered, clean⟩ := shown result
          refine ⟨e, pending ▸ here, named, issued ▸ delivered.append new, ?_⟩
          intro i mem named
          rw [issued] at mem
          obtain fresh | old := mem_append.mp mem
          · rintro (⟨op, -⟩ | ⟨op, -⟩)
            · cases (forgets i fresh).symm.trans op
            · cases (forgets i fresh).symm.trans op
          · exact clean i old named

theorem ack_grows (w : World) (self address ticket : Nat) (target : Option MmBinding)
    (native forget : Native) :
    ∃ new, (w.ack self target address ticket native forget).1.issued = new ++ w.issued := by
  simp only [World.ack]
  split
  · exact ⟨[], rfl⟩
  case h_2 custody thread =>
    split
    · exact ⟨[], rfl⟩
    case h_2 e found =>
      split
      · exact ⟨_, rfl⟩
      · obtain ⟨new, issued, -⟩ := retire_issued
          (w := ({ w with custody := custody } : World).adapt e.id (e.transfer.ack native))
          e.id (e.transfer.ack native).handle forget
        split
        case h_1 retired =>
          rw [retired] at issued
          exact ⟨_, issued.trans (append_assoc ..).symm⟩
        case h_2 retired =>
          rw [retired] at issued
          exact ⟨_, issued.trans (append_assoc ..).symm⟩

/-! ## The contract -/

/-- What holds of a collection at every point, and of the calls made there. -/
structure World.Contract (w : World) : Prop where
  /-- The count of pending transfers is that of the list. -/
  count : w.custody.count = w.custody.pending.length
  /-- A ticket that `BEGIN` has returned is pending until its `FORGET` or an `ABANDON` has
  succeeded. -/
  held : ∀ i ∈ w.issued, ∀ q, i.control.op = .begin → i.control.native = .ok q →
    ∃ id, i.entry = some id ∧ Held w.custody.pending w.issued id q.ticket
  /-- A `begin` that makes no entry has issued no control that succeeds. -/
  null : ∀ self target address memory native,
    (w.begin self target address memory native).2.entry = none →
    ∃ new, (w.begin self target address memory native).1.issued = new ++ w.issued ∧
      ∀ i ∈ new, ¬i.control.Succeeds
  /-- An acknowledgement that returns success: the transfer of that binding, address and ticket was
  pending, its `ACK` has succeeded after a `READ`, and it was neither stale nor cancelled. -/
  acknowledged : ∀ self target address ticket native forget,
    (w.ack self target address ticket native forget).2.result = .ok () →
    ∃ e ∈ w.custody.pending, target = some e.target ∧ e.transfer.address = address ∧
      e.transfer.ticket = ticket ∧
      Delivered (w.ack self target address ticket native forget).1.issued e ∧
      ∀ i ∈ (w.ack self target address ticket native forget).1.issued, i.entry = some e.id →
        ¬i.control.Spoils
  /-- Once an entry was settled as stale or cancelled, every acknowledgement that finds it fails. -/
  refused : ∀ i ∈ w.issued, i.control.Spoils →
    ∀ e self target address ticket native forget, i.entry = some e.id →
      w.custody.find target address ticket = .ok e →
      (w.ack self target address ticket native forget).2.result ≠ .ok ()
  /-- `ACK` is issued only for an entry that no control before it has settled. -/
  once : ∀ post i pre, w.issued = post ++ i :: pre → i.control.op = .ack → Unsettled pre i.entry
  /-- After an `ABANDON` no transfer is begun, acknowledged or cancelled. -/
  closed : ∀ post i pre, w.issued = post ++ i :: pre →
    i.control.op = .begin ∨ i.control.op = .ack ∨ i.control.op = .cancel → Open pre

theorem World.Good.contract (good : w.Good) : w.Contract where
  count := good.count
  held := good.held
  null _ _ _ _ _ := begin_null
  acknowledged _ _ _ _ _ _ ok := by
    obtain ⟨e, pending, named, rest⟩ := good.ack_ok ok
    obtain ⟨-, -, binding, same, ticket⟩ := Collection.find_ok named
    exact ⟨e, pending, binding, same, ticket, rest⟩
  refused := by
    intro i here spoils e self target address ticket native forget entry named ok
    obtain ⟨e', -, found, -, clean⟩ := good.ack_ok ok
    cases found.symm.trans named
    obtain ⟨new, grown⟩ := ack_grows w self address ticket target native forget
    exact clean i (grown ▸ mem_append_right _ here) entry spoils
  once := by
    rintro post i pre same op
    have permitted : Permits pre i := Lawful.split (same ▸ good.lawful)
    simp only [Permits, op] at permitted
    exact permitted.2.2.1
  closed := by
    rintro post i pre same op
    have permitted : Permits pre i := Lawful.split (same ▸ good.lawful)
    obtain op | op | op := op
    · simp only [Permits, op] at permitted
      exact permitted
    · simp only [Permits, op] at permitted
      exact permitted.2.1
    · simp only [Permits, op] at permitted
      exact permitted.2.1

/-! ## The loop of a connection -/

structure Turn where
  self : Nat
  rq : PageRequest
  natives : PageNatives
  ack : Native
  forget : Native
  abandoned : Native
  goesOn : Bool

def Serve.turn (s : Serve) (t : Turn) : Option Serve :=
  s.request t.self t.rq t.natives t.ack t.forget t.abandoned t.goesOn

theorem call_reach {out : World × Outcome} (c : Call) (called : w.call c = some out) :
    Reach Calls w out.1 := by
  have step : Calls w c out.1 := by
    show (w.call c).map Prod.fst = some out.1
    rw [called]
    rfl
  exact .step .refl step

theorem abandon_reach (self : Nat) (native : Native) : Reach Calls w (w.abandon self native).1 :=
  call_reach (.abandon self native) rfl

theorem cancel_reach (self address ticket : Nat) (target : Option MmBinding)
    (native forget : Native) :
    Reach Calls w (w.cancel self target address ticket native forget).1 :=
  call_reach (.cancel self target address ticket native forget) rfl

theorem ctxPageCaptured_reach (self : Nat) (target : MmBinding) (address id : Nat)
    (n : PageNatives) : Reach Calls w (w.ctxPageCaptured self target address id n).1 := by
  simp only [World.ctxPageCaptured]
  split
  · exact .refl
  case h_2 after outcome captured =>
    have first : Reach Calls w after := call_reach (.capture id n.captured) captured
    split
    · split
      · split
        · exact first.trans (cancel_reach ..)
        · exact first.trans (cancel_reach ..)
      · exact first
    · split
      · split
        · exact first
        case h_2 read =>
          have second := first.trans (call_reach (.read id n.buf n.staging n.readOut) read)
          split
          · exact second
          · exact second
      · split
        · exact first.trans (cancel_reach ..)
        · exact first.trans (cancel_reach ..)

theorem ctxPage_reach (self : Nat) (target : MmBinding) (address length capacity : Nat)
    (n : PageNatives) : Reach Calls w (w.ctxPage self target address length capacity n).1 := by
  have first : Reach Calls w
      (w.begin self (some target) address n.memory n.begun).1 :=
    call_reach (.begin self (some target) address n.memory n.begun) rfl
  simp only [World.ctxPage]
  split
  · exact .refl
  · split
    · exact .refl
    · exact .refl
    · split
      · exact first.trans (ctxPageCaptured_reach ..)
      · exact first
      · exact first
      · exact first

/-- What holds of a loop: its collection is a reached one, and it has processed only page requests
while a ticket was pending. -/
structure Serve.Orderly (s : Serve) : Prop where
  reached : Reach Calls .new s.world
  processed : ∀ p ∈ s.processed, p.2 = 0 ∨ nested p.1 = true

variable {s : Serve}

theorem Serve.Orderly.close (orderly : s.Orderly) (self : Nat) (native : Native) :
    (s.close self native).Orderly := by
  have reached := orderly.reached.trans (abandon_reach self native)
  simp only [Serve.close]
  split
  · exact ⟨reached, orderly.processed⟩
  · split
    · exact ⟨reached, orderly.processed⟩
    · exact ⟨reached, orderly.processed⟩

theorem Serve.Orderly.leave (orderly : s.Orderly) (self : Nat) (native : Native) :
    (s.leave self native).Orderly :=
  { orderly.close self native with }

theorem Serve.Orderly.process (orderly : s.Orderly) (self : Nat) (rq : PageRequest)
    (n : PageNatives) (ack forget abandoned : Native)
    (passes : s.world.custody.count = 0 ∨ nested rq.nr = true) :
    (s.process self rq n ack forget abandoned).Orderly := by
  have count := (reached_good orderly.reached).count
  have noted : Serve.Orderly { s with
      processed := (rq.nr, s.world.custody.pending.length) :: s.processed } := by
    refine ⟨orderly.reached, fun p here => ?_⟩
    obtain rfl | old := mem_cons.mp here
    · exact passes.imp (fun none => count.symm.trans none) id
    · exact orderly.processed p old
  simp only [Serve.process]
  split
  · exact ⟨orderly.reached.trans (ctxPage_reach ..), noted.processed⟩
  · split
    · split
      · exact ⟨orderly.reached.trans
          (call_reach (.ack self (some rq.target) rq.address rq.arg ack forget) rfl),
          noted.processed⟩
      · exact noted
    · split
      · exact noted.close self abandoned
      · exact noted

theorem Serve.Orderly.turn {s' : Serve} {t : Turn} (orderly : s.Orderly)
    (step : s.turn t = some s') : s'.Orderly := by
  simp only [Serve.turn, Serve.request] at step
  split at step
  · cases step
  · split at step
    · cases step
      exact orderly.leave ..
    · split at step
      · cases step
        exact orderly.leave ..
      case isFalse passes =>
        have passes : s.world.custody.count = 0 ∨ nested t.rq.nr = true := by
          by_cases none : s.world.custody.count = 0
          · exact .inl none
          · refine .inr ?_
            by_contra other
            exact passes ⟨none, by simpa using other⟩
        have processed := orderly.process t.self t.rq t.natives t.ack t.forget t.abandoned passes
        split at step
        · cases step
          exact processed.leave ..
        · cases step
          exact processed

theorem serve_orderly {s : Serve} (run : Reach (Computed Serve.turn) .new s) : s.Orderly :=
  run.invariant (fun _ _ _ orderly step => orderly.turn step)
    ⟨.refl, fun _ here => absurd here not_mem_nil⟩

/-! ## The theorem -/

/-- Connection custody: in every state that a sequence of calls reaches, and in every state that the
loop of a connection reaches. -/
theorem connection_custody_contract {w : World} {s : Serve} (calls : Reach Calls .new w)
    (serving : Reach (Computed Serve.turn) .new s) :
    w.Contract ∧ s.world.Contract ∧ ∀ p ∈ s.processed, p.2 = 0 ∨ nested p.1 = true :=
  have orderly := serve_orderly serving
  ⟨(reached_good calls).contract, (reached_good orderly.reached).contract, orderly.processed⟩

/-- The reply to a control of ticket 9 for the page at 4096 of address space 2. -/
def replyOf (op : TransferOp) (features status : Nat) : TransferBlock :=
  { TransferBlock.zero with
    version := transferAbi
    size := transferSize
    op := op.code
    features
    mm := 2
    address := 4096
    ticket := 9
    status }

def pageOwner : MmBinding := ⟨1, 2, 0, 1⟩

/-- The calls of a transfer whose acknowledgement is stale and whose `FORGET` fails. -/
def staleTransfer : List Call :=
  [.begin 0 (some pageOwner) 4096 true (.ok (replyOf .begin 0 0)),
    .capture 0 (.ok (replyOf .capture 7 1)),
    .read 0 0 zeroPage (.ok (replyOf .read 7 1)),
    .ack 0 (some pageOwner) 4096 9 (.error .ESTALE) (.error .EBUSY)]

def servedPage : List Turn :=
  let natives : PageNatives :=
    { shared := some false
      memory := true
      begun := .ok (replyOf .begin 0 0)
      captured := .ok (replyOf .capture 7 1)
      readOut := .ok (replyOf .read 7 1)
      buf := 0
      staging := zeroPage
      cancelled := .error .EBUSY
      forgotten := .error .EBUSY }
  let turn (nr arg : Nat) : Turn :=
    ⟨0, ⟨nr, true, pageOwner, 4096, arg, true, 4096⟩, natives, .ok (replyOf .ack 7 1),
      .ok .zero, .ok .zero, true⟩
  [turn opCtxPage 4096, turn opInstalled 9, turn 1 0]

/-- A stale ticket whose `FORGET` has failed is still pending, and a loop that has served a page
goes on to another request. -/
theorem connection_custody_contract_stale : ∃ (w : World) (s : Serve), w.Contract ∧
    w.custody.count = 1 ∧ w.issued.length = 5 ∧ s.world.Contract ∧
    s.processed = [(1, 0), (opInstalled, 1), (opCtxPage, 0)] ∧
    ∀ p ∈ s.processed, p.2 = 0 ∨ nested p.1 = true := by
  have stale : (exec (fun (w : World) (c : Call) => (w.call c).map Prod.fst) .new
      staleTransfer).any (fun w => w.custody.count == 1 && w.issued.length == 5) = true := by
    decide
  have served : (exec Serve.turn .new servedPage).any (fun s =>
      s.processed == [(1, 0), (opInstalled, 1), (opCtxPage, 0)]) = true := by
    decide
  obtain ⟨w, calls, shape⟩ := exec_exhibits stale
  obtain ⟨s, serving, requests⟩ := exec_exhibits served
  have ⟨count, length⟩ := Bool.and_eq_true_iff.mp shape
  obtain ⟨first, second, third⟩ := connection_custody_contract calls serving
  exact ⟨w, s, first, eq_of_beq count, eq_of_beq length, second, eq_of_beq requests, third⟩

end Vmctx.Connection
