import Vmctx.Connection.Collection
/-!
# No ticket is lost

Every control is permitted by the ones before it: an `ACK` follows the read of its ticket and no
settlement of it, a `FORGET` follows one, and nothing but captures, reads and further abandonments
follows an `ABANDON`. What an entry says of its ticket is what the controls issued for it have
returned. One call keeps both, whatever the native results.
-/

namespace Vmctx.Connection

/-! ## Permitted controls -/

def Control.Settles (c : Control) : Prop :=
  c.op = .ack ∧ (c.Done ∨ c.native = .error .ESTALE) ∨ c.op = .cancel ∧ c.Done

def Control.Spoils (c : Control) : Prop :=
  c.op = .ack ∧ c.native = .error .ESTALE ∨ c.op = .cancel ∧ c.Done

def Control.Succeeds (c : Control) : Prop := ∃ q, c.native = .ok q

def Open (log : List Issue) : Prop := ∀ i ∈ log, i.control.op ≠ .abandon

def Unsettled (log : List Issue) (entry : Option Nat) : Prop :=
  ∀ i ∈ log, i.entry = entry → ¬i.control.Settles

def Begun (log : List Issue) (entry : Option Nat) (ticket : Nat) : Prop :=
  ∃ i ∈ log, i.entry = entry ∧ i.control.op = .begin ∧
    ∃ q, i.control.native = .ok q ∧ q.ticket = ticket

def Permits (pre : List Issue) (i : Issue) : Prop :=
  match i.control.op with
  | .begin => Open pre
  | .capture | .read => Begun pre i.entry i.control.ticket
  | .ack => Begun pre i.entry i.control.ticket ∧ Open pre ∧ Unsettled pre i.entry ∧
      ∃ j ∈ pre, j.entry = i.entry ∧ j.control.op = .read ∧ j.control.Done ∧
        j.control.mm = i.control.mm ∧ j.control.address = i.control.address ∧
        j.control.ticket = i.control.ticket
  | .cancel => Begun pre i.entry i.control.ticket ∧ Open pre ∧ Unsettled pre i.entry
  | .forget => Begun pre i.entry i.control.ticket ∧ Open pre ∧
      ∃ j ∈ pre, j.entry = i.entry ∧ j.control.Settles
  | .abandon => True

def Lawful : List Issue → Prop
  | [] => True
  | i :: pre => Permits pre i ∧ Lawful pre

theorem Lawful.split {post pre : List Issue} {i : Issue} (lawful : Lawful (post ++ i :: pre)) :
    Permits pre i := by
  induction post with
  | nil => exact lawful.1
  | cons first rest ih => exact ih lawful.2

/-! ## What is known of a ticket -/

structure Known (log : List Issue) (e : Entry) : Prop where
  begun : Begun log (some e.id) e.transfer.ticket
  mm : e.transfer.mm = e.target.mm
  read : e.transfer.read = true → ∃ i ∈ log, i.entry = some e.id ∧ i.control.op = .read ∧
    i.control.Done ∧ i.control.mm = e.transfer.mm ∧ i.control.address = e.transfer.address ∧
    i.control.ticket = e.transfer.ticket
  unsettled : e.transfer.settled = false → Unsettled log (some e.id)
  settled : e.transfer.settled = true → ∃ i ∈ log, i.entry = some e.id ∧ i.control.Settles
  cancelled : e.transfer.cancelled = true → e.transfer.settled = true
  delivered : e.transfer.settled = true → e.transfer.cancelled = false →
    e.transfer.settlementError = none → ∃ i ∈ log, i.entry = some e.id ∧ i.control.op = .ack ∧
      i.control.Done ∧ i.control.mm = e.transfer.mm ∧
      i.control.address = e.transfer.address ∧ i.control.ticket = e.transfer.ticket
  spoiled : ∀ i ∈ log, i.entry = some e.id → i.control.Spoils →
    e.transfer.cancelled = true ∨ e.transfer.settlementError ≠ none

variable {e : Entry} {i : Issue} {log : List Issue} {α : Type}

theorem Known.cons (known : Known log e)
    (quiet : i.entry = some e.id → ¬i.control.Settles) : Known (i :: log) e := by
  have mem {j : Issue} (old : j ∈ log) : j ∈ i :: log := List.mem_cons_of_mem _ old
  have spoils (j : Issue) (spoiled : j.control.Spoils) : j.control.Settles := by
    obtain ⟨op, stale⟩ | cancel := spoiled
    · exact .inl ⟨op, .inr stale⟩
    · exact .inr cancel
  constructor
  case begun =>
    obtain ⟨j, old, rest⟩ := known.begun
    exact ⟨j, mem old, rest⟩
  case mm => exact known.mm
  case read =>
    intro flag
    obtain ⟨j, old, rest⟩ := known.read flag
    exact ⟨j, mem old, rest⟩
  case unsettled =>
    intro flag j here named
    obtain rfl | old := List.mem_cons.mp here
    · exact quiet named
    · exact known.unsettled flag j old named
  case settled =>
    intro flag
    obtain ⟨j, old, rest⟩ := known.settled flag
    exact ⟨j, mem old, rest⟩
  case cancelled => exact known.cancelled
  case delivered =>
    intro flag live none
    obtain ⟨j, old, rest⟩ := known.delivered flag live none
    exact ⟨j, mem old, rest⟩
  case spoiled =>
    intro j here named spoiled
    obtain rfl | old := List.mem_cons.mp here
    · exact absurd (spoils j spoiled) (quiet named)
    · exact known.spoiled j old named spoiled

variable {c : Control} {result : Except Errno α}

theorem Control.not_settles (ack : c.op ≠ .ack) (cancel : c.op ≠ .cancel) : ¬c.Settles := by
  rintro (⟨op, -⟩ | ⟨op, -⟩)
  · exact ack op
  · exact cancel op

/-! ## Calls of the adapter -/

def grown (log : List Issue) (id : Nat) (issued : Option Control) : List Issue :=
  (issued.map (Issue.mk (some id))).toList ++ log

/-- What a call of the adapter leaves known of its entry, and what it issues. -/
structure Adapts (log : List Issue) (e : Entry) (did : Adapted α) : Prop where
  known : Known (grown log e.id did.issued) { e with transfer := did.handle }
  permitted : ∀ c, did.issued = some c →
    c.op ≠ .begin ∧ c.op ≠ .abandon ∧ Permits log ⟨some e.id, c⟩
  ticket : did.handle.ticket = e.transfer.ticket
  address : did.handle.address = e.transfer.address

theorem Adapts.silent (known : Known log e) : Adapts log e ⟨e.transfer, none, result⟩ where
  known := known
  permitted _ here := nomatch here
  ticket := rfl
  address := rfl

theorem Adapts.speaks {h : Handle} (known : Known (⟨some e.id, c⟩ :: log) { e with transfer := h })
    (op : c.op ≠ .begin ∧ c.op ≠ .abandon) (permitted : Permits log ⟨some e.id, c⟩)
    (ticket : h.ticket = e.transfer.ticket) (address : h.address = e.transfer.address) :
    Adapts log e ⟨h, some c, result⟩ where
  known := known
  permitted d here := by
    cases here
    exact ⟨op.1, op.2, permitted⟩
  ticket := ticket
  address := address

/-- A control that neither makes nor settles its entry is permitted, and leaves it known. -/
theorem Known.asks (known : Known log e) (op : c.op = .capture ∨ c.op = .read)
    (ticket : c.ticket = e.transfer.ticket) : Known (⟨some e.id, c⟩ :: log) e ∧
      (c.op ≠ .begin ∧ c.op ≠ .abandon) ∧ Permits log ⟨some e.id, c⟩ := by
  rcases op with op | op
  all_goals
    refine ⟨known.cons fun _ => c.not_settles (by simp [op]) (by simp [op]), by simp [op], ?_⟩
    simp only [Permits, op, ticket]
    exact known.begun

theorem capture_adapts (known : Known log e) (native : Native) :
    Adapts log e (e.transfer.capture native) := by
  simp only [Handle.capture]
  obtain ⟨none, failed⟩ | ⟨c, issued, ⟨op, -, -, ticket, -⟩, -⟩ :=
    step_cases e.transfer .capture 0 native
  · simp only [none, failed]
    exact .silent known
  · obtain ⟨after, plain, permitted⟩ := known.asks (.inl op) ticket
    simp only [issued]
    split
    · exact .speaks after plain permitted rfl rfl
    · split
      · exact .speaks after plain permitted rfl rfl
      · split
        · exact .speaks after plain permitted rfl rfl
        · exact .speaks { after with } plain permitted rfl rfl

theorem read_adapts (known : Known log e) (buf : Nat) (staging : PageBytes) (native : Native) :
    Adapts log e (e.transfer.readBytes buf staging native) := by
  simp only [Handle.readBytes]
  split
  · exact .silent known
  obtain ⟨none, failed⟩ | ⟨c, issued, names, done, -⟩ := step_cases e.transfer .read buf native
  · simp only [none, failed]
    exact .silent known
  · obtain ⟨op, mm, address, ticket, -⟩ := names
    obtain ⟨after, plain, permitted⟩ := known.asks (.inr op) ticket
    simp only [issued]
    split
    · exact .speaks after plain permitted rfl rfl
    case h_2 q ok =>
      split
      · exact .speaks after plain permitted rfl rfl
      · refine .speaks { after with read := fun _ => ?_ } plain permitted rfl rfl
        exact ⟨_, List.mem_cons_self, rfl, op, done.mp ⟨q, ok⟩, mm, address, ticket⟩

theorem Known.settle {cancelled : Bool} {error : Option Errno} (known : Known log e)
    (settles : c.Settles) (delivered : cancelled = false → error = none → c.op = .ack ∧ c.Done ∧
      c.mm = e.transfer.mm ∧ c.address = e.transfer.address ∧ c.ticket = e.transfer.ticket)
    (spoiled : c.Spoils → cancelled = true ∨ error ≠ none) (open_ : Unsettled log (some e.id)) :
    Known (⟨some e.id, c⟩ :: log) { e with transfer :=
      { e.transfer with settled := true, cancelled := cancelled, settlementError := error } } := by
  have mem {j : Issue} (old : j ∈ log) : j ∈ ⟨some e.id, c⟩ :: log := List.mem_cons_of_mem _ old
  constructor
  case begun =>
    obtain ⟨j, old, rest⟩ := known.begun
    exact ⟨j, mem old, rest⟩
  case mm => exact known.mm
  case read =>
    intro flag
    obtain ⟨j, old, rest⟩ := known.read flag
    exact ⟨j, mem old, rest⟩
  case unsettled => exact nofun
  case settled => exact fun _ => ⟨_, List.mem_cons_self, rfl, settles⟩
  case cancelled => exact fun _ => rfl
  case delivered =>
    intro _ live none
    exact ⟨_, List.mem_cons_self, rfl, delivered live none⟩
  case spoiled =>
    intro j here named bad
    obtain rfl | old := List.mem_cons.mp here
    · exact spoiled bad
    · obtain ⟨op, stale⟩ | cancel := bad
      · exact absurd (.inl ⟨op, .inr stale⟩) (open_ j old named)
      · exact absurd (.inr cancel) (open_ j old named)

theorem ack_adapts (known : Known log e) (log_open : Open log) (native : Native) :
    Adapts log e (e.transfer.ack native) := by
  simp only [Handle.ack]
  split
  · exact .silent known
  case isFalse live =>
    split
    · exact .silent known
    case isFalse read =>
      split
      · exact .silent known
      case isFalse fresh =>
        have live : e.transfer.cancelled = false := by simpa using live
        have read : e.transfer.read = true := by simpa using read
        have fresh : e.transfer.settled = false := by simpa using fresh
        have unsettled := known.unsettled fresh
        obtain ⟨none, failed⟩ | ⟨c, issued, names, done, fails, stale⟩ :=
          step_cases e.transfer .ack 0 native
        · simp only [none, failed]
          exact .silent known
        · obtain ⟨op, mm, address, ticket, -⟩ := names
          have plain : c.op ≠ .begin ∧ c.op ≠ .abandon := by
            rw [op]
            decide
          have permitted : Permits log ⟨some e.id, c⟩ := by
            simp only [Permits, op, ticket]
            obtain ⟨j, old, named, kind, did, sameMm, sameAddress, sameTicket⟩ := known.read read
            exact ⟨known.begun, log_open, unsettled, j, old, named, kind, did,
              sameMm.trans mm.symm, sameAddress.trans address.symm, sameTicket⟩
          simp only [issued]
          split
          case h_1 q ok =>
            have did := done.mp ⟨q, ok⟩
            have settles : c.Settles := .inl ⟨op, .inl did⟩
            have after : Known (⟨some e.id, c⟩ :: log) { e with transfer :=
                { e.transfer with
                  settled := true
                  cancelled := false
                  settlementError := none } } := by
              refine known.settle settles (fun _ _ => ⟨op, did, mm, address, ticket⟩) ?_ unsettled
              rintro (⟨-, failed⟩ | ⟨cancels, -⟩)
              · obtain ⟨r, success, -⟩ := did
                cases failed.symm.trans success
              · cases op.symm.trans cancels
            exact .speaks { after with
              cancelled := fun flag => absurd (live.symm.trans flag) (by decide)
              delivered := fun settled _ => after.delivered settled rfl
              spoiled := fun j here named bad => (after.spoiled j here named bad).imp
                nofun id } plain permitted rfl rfl
          case h_2 errno error =>
            split
            case isTrue isStale =>
              cases isStale
              have native := stale .ESTALE error (by decide)
              have settles : c.Settles := .inl ⟨op, .inr native⟩
              have after : Known (⟨some e.id, c⟩ :: log) { e with transfer :=
                  { e.transfer with
                    settled := true
                    cancelled := e.transfer.cancelled
                    settlementError := some .ESTALE } } :=
                known.settle settles nofun (fun _ => .inr nofun) unsettled
              exact .speaks after plain permitted rfl rfl
            case isFalse other =>
              have quiet : ¬c.Settles := by
                rintro (⟨-, did | failed⟩ | ⟨cancels, -⟩)
                · obtain ⟨q, ok⟩ := done.mpr did
                  cases error.symm.trans ok
                · have same := fails _ failed
                  rw [same] at error
                  exact other (by injection error with same; exact same.symm)
                · cases op.symm.trans cancels
              exact .speaks (known.cons fun _ => quiet) plain permitted rfl rfl

theorem cancel_adapts (known : Known log e) (log_open : Open log) (native : Native) :
    Adapts log e (e.transfer.cancel native) := by
  simp only [Handle.cancel]
  split
  · exact .silent known
  case isFalse fresh =>
    have fresh : e.transfer.settled = false := by simpa using fresh
    have unsettled := known.unsettled fresh
    obtain ⟨none, failed⟩ | ⟨c, issued, names, done, fails, -⟩ :=
      step_cases e.transfer .cancel 0 native
    · simp only [none, failed]
      exact .silent known
    · obtain ⟨op, -, -, ticket, -⟩ := names
      have plain : c.op ≠ .begin ∧ c.op ≠ .abandon := by
        rw [op]
        decide
      have permitted : Permits log ⟨some e.id, c⟩ := by
        simp only [Permits, op, ticket]
        exact ⟨known.begun, log_open, unsettled⟩
      simp only [issued]
      split
      case h_1 errno error =>
        have quiet : ¬c.Settles := by
          rintro (⟨acks, -⟩ | ⟨-, did⟩)
          · cases op.symm.trans acks
          · obtain ⟨q, ok⟩ := done.mpr did
            cases error.symm.trans ok
        exact .speaks (known.cons fun _ => quiet) plain permitted rfl rfl
      case h_2 q ok =>
        have settles : c.Settles := .inr ⟨op, done.mp ⟨q, ok⟩⟩
        have after : Known (⟨some e.id, c⟩ :: log) { e with transfer :=
            { e.transfer with
              settled := true
              cancelled := true
              settlementError := e.transfer.settlementError } } :=
          known.settle settles nofun (fun _ => .inl rfl) unsettled
        exact .speaks after plain permitted rfl rfl

/-- What `source_transfer_forget` issues for a settled ticket: a `FORGET`, and it returns success
exactly when that has succeeded. -/
theorem forget_cases (h : Handle) (native : Native) :
    (h.forget native).issued = none ∧ (∃ errno, (h.forget native).result = .error errno) ∨
    ∃ c : Control, (h.forget native).issued = some c ∧ h.settled = true ∧ c.op = .forget ∧
      c.ticket = h.ticket ∧ ((h.forget native).result = .ok () → c.Succeeds) := by
  simp only [Handle.forget]
  split
  · exact .inl ⟨rfl, _, rfl⟩
  case isFalse settled =>
    have settled : h.settled = true := by simpa using settled
    obtain ⟨none, failed⟩ | ⟨c, issued, names, done, -⟩ := step_cases h .forget 0 native
    · simp only [none, failed]
      exact .inl ⟨trivial, _, rfl⟩
    · refine .inr ⟨c, ?_, settled, names.1, names.2.2.2.1, ?_⟩
      · simp only [issued]
        split <;> rfl
      · intro ok
        split at ok
        · cases ok
        case h_2 q same =>
          obtain ⟨r, success, -⟩ := done.mp ⟨q, same⟩
          exact ⟨r, success⟩

end Vmctx.Connection
