import Vmctx.Journal.Exchange
import Vmctx.System.NumberedLog
/-!
# The journal in the kernel

Commits append, acknowledgements remove a front, and the answer of a `READ` is a batch from the
front. `Kept` states what that makes of the journal: the list holds what lies ahead of the
acknowledged cursor, what was offered was copied out, and every answer of a `READ` carries on from
the cursor it was asked at, for as long as it is in flight.
-/

namespace Vmctx.Journal

open Vmctx.System.NumberedLog List

/-! ## What each section does -/

inductive CommitMove (s : MmSlot) (c : Commit) : MmSlot → Prop
  | ignored (why : c.end_ ≤ c.start ∨ c.mmLive = false ∨ s.accessError ≠ none) : CommitMove s c s
  | poisoned {errno : Errno} {counter : Nat} (advanced : s.vacSeqCtr ≤ counter) :
      CommitMove s c { s with vacSeqCtr := counter, accessError := some errno }
  | appended {constructions : Nat → Option Nat} (healthy : s.accessError = none) :
      CommitMove s c { s with
        vacSeqCtr := s.vacSeqCtr + 1
        constructions := constructions
        accessLog := s.accessLog ++ [s.commitEvent c]
        accessCount := s.accessCount + 1 }

theorem accessCommit_moves (s : MmSlot) (c : Commit) : CommitMove s c (s.accessCommit c) := by
  unfold MmSlot.accessCommit
  split
  · next nothing => exact .ignored (nothing.imp id .inl)
  split
  · next failed =>
    refine .ignored (.inr (.inr ?_))
    intro none_
    rw [none_] at failed
    cases failed
  next healthy =>
  rw [Bool.not_eq_true, Option.isSome_eq_false_iff, Option.isNone_iff_eq_none] at healthy
  split
  · exact .poisoned (Nat.le_refl _)
  split
  · exact .poisoned (Nat.le_refl _)
  dsimp only
  split
  · exact .poisoned (Nat.le_succ _)
  · exact .appended healthy
  · exact @CommitMove.appended s c s.constructions healthy

/-- What the locked section of a control does to the journal and what it answers. -/
inductive ControlMove (s : MmSlot) : Option AccessRequest → MmSlot → Except Errno AccessLog → Prop
  | refused {arg : Option AccessRequest} {errno : Errno} : ControlMove s arg s (.error errno)
  | informed {rq : AccessRequest} {out : AccessLog} (info : rq.op = accessInfo)
      (op : out.op = accessInfo) : ControlMove s (some rq) s (.ok out)
  | reads {rq : AccessRequest} {pid : Nat} (op : rq.op = accessRead)
      (healthy : s.accessError = none) (cursor : rq.cursor = s.accessAcked) :
      ControlMove s (some rq) s
        (.ok { s.answer rq.op pid with event := s.accessLog.take accessMax }.close)
  | acks {rq : AccessRequest} {out : AccessLog} (op : rq.op = accessAck)
      (healthy : s.accessError = none) (onward : s.accessAcked ≤ rq.cursor)
      (offered : rq.cursor ≤ s.accessOffered) (answers : out.op = accessAck) :
      ControlMove s (some rq)
        { s with
          accessLog := s.accessLog.dropWhile fun e => e.seq ≤ rq.cursor
          accessCount := s.accessCount -
            (s.accessLog.length - (s.accessLog.dropWhile fun e => e.seq ≤ rq.cursor).length)
          accessAcked := rq.cursor } (.ok out)

theorem ctlAccess_moves (s : MmSlot) (task : Option Nat) (current : Nat) (mm : Bool)
    (arg : Option AccessRequest) :
    ControlMove s arg (s.ctlAccess task current mm arg).1
      (s.ctlAccess task current mm arg).2 := by
  unfold MmSlot.ctlAccess
  split
  · exact .refused
  next rq =>
  split
  · exact .refused
  next shaped =>
  split
  · split
    · exact .refused
    · next bare =>
      simp only [not_or, ne_eq, not_not] at bare
      exact .informed bare.1 bare.1
  next pid =>
  split
  · exact .refused
  split
  · exact .refused
  split
  · exact .refused
  split
  · exact .refused
  next healthy =>
  split
  · next op =>
    split
    · exact .refused
    · next within =>
      rw [not_or, Nat.not_lt, Nat.not_lt] at within
      exact .acks op healthy within.1 within.2 op
  next notAck =>
  split
  · next op =>
    split
    · exact .refused
    · next cursor => exact .reads op healthy (not_not.mp cursor)
  next notRead =>
  have info : rq.op = accessInfo := by
    simp only [not_or, Nat.not_lt, accessAck, accessRead, accessInfo] at shaped notAck notRead ⊢
    omega
  exact .informed info info

theorem AccessLog.close_cursor (out : AccessLog) :
    out.close.cursor = last AccessEvent.seq out.acked out.event := rfl

/-! ## The journal -/

def CallPc.out : CallPc → Option AccessLog
  | .copying out => some out
  | .returned (.ok out) => some out
  | .returned (.error _) => none

/-- The answer of a `READ` at a cursor the journal has offered carries on from the cursor. -/
structure Offer (s : MmSlot) (committed : List AccessEvent) (cursor : Nat) (out : AccessLog) :
    Prop where
  offered : cursor ≤ s.accessOffered
  numbered : out.cursor ≤ s.vacSeqCtr
  batch : through AccessEvent.seq out.cursor committed =
    through AccessEvent.seq cursor committed ++ out.event

def Call.Answers (s : MmSlot) (committed : List AccessEvent) (call : Call) : Prop :=
  ∀ out, call.pc.out = some out → ∃ rq, call.arg = some rq ∧ out.op = rq.op ∧
    (rq.op = accessRead → Offer s committed rq.cursor out)

/-- The journal holds what lies ahead of the acknowledged cursor. -/
structure World.Kept (w : World) : Prop where
  ascending : Ascending AccessEvent.seq w.committed
  numbered : ∀ e ∈ w.committed, 0 < e.seq ∧ e.seq ≤ w.slot.vacSeqCtr
  log : w.slot.accessLog = after AccessEvent.seq w.slot.accessAcked w.committed
  count : w.slot.accessCount = w.slot.accessLog.length
  acked : w.slot.accessAcked ≤ w.slot.accessOffered
  offered : w.slot.accessOffered ≤ w.slot.vacSeqCtr
  copied : ∀ e ∈ w.committed, e.seq ≤ w.slot.accessOffered → e ∈ w.copied
  answers : ∀ id call, w.calls id = some call → call.Answers w.slot w.committed

variable {committed' : List AccessEvent} {s' : MmSlot} {w w' : World}

theorem Offer.mono {s : MmSlot} {committed : List AccessEvent} {cursor : Nat} {out : AccessLog}
    (offer : Offer s committed cursor out) (counter : s.vacSeqCtr ≤ s'.vacSeqCtr)
    (offered : s.accessOffered ≤ s'.accessOffered) (bounded : s.accessOffered ≤ s.vacSeqCtr)
    (same : ∀ c ≤ s.vacSeqCtr,
      through AccessEvent.seq c committed' = through AccessEvent.seq c committed) :
    Offer s' committed' cursor out where
  offered := Nat.le_trans offer.offered offered
  numbered := Nat.le_trans offer.numbered counter
  batch := by
    rw [same _ offer.numbered, same _ (Nat.le_trans offer.offered bounded), offer.batch]

theorem World.Kept.answers_mono (kept : w.Kept) {call : Call}
    (answers : call.Answers w.slot w.committed) (counter : w.slot.vacSeqCtr ≤ s'.vacSeqCtr)
    (offered : w.slot.accessOffered ≤ s'.accessOffered) (same : ∀ c ≤ w.slot.vacSeqCtr,
      through AccessEvent.seq c committed' = through AccessEvent.seq c w.committed) :
    call.Answers s' committed' := by
  intro out answer
  obtain ⟨rq, arg, op, offer⟩ := answers out answer
  exact ⟨rq, arg, op, fun read => (offer read).mono counter offered kept.offered same⟩

theorem World.Kept.commit {c : Commit} (kept : w.Kept) (step : w.next (.commit c) = some w') :
    w'.Kept := by
  have moved := accessCommit_moves w.slot c
  cases Option.some.inj step
  revert moved
  generalize w.slot.accessCommit c = slot'
  intro moved
  cases moved with
  | ignored why =>
    rw [drop_length, append_nil]
    exact kept
  | poisoned advanced =>
    rw [drop_length, append_nil]
    exact {
      kept with
      numbered := fun e member =>
        (kept.numbered e member).imp id fun old => Nat.le_trans old advanced
      offered := Nat.le_trans kept.offered advanced
      answers := fun id call found =>
        kept.answers_mono (kept.answers id call found) advanced (Nat.le_refl _) fun _ _ => rfl }
  | appended healthy =>
    dsimp only
    rw [drop_left]
    have newest : ∀ n ≤ w.slot.vacSeqCtr, n < (w.slot.commitEvent c).seq :=
      fun n old => Nat.lt_succ_of_le old
    refine {
      ascending := kept.ascending.concat fun f member => newest _ (kept.numbered f member).2
      numbered := ?_
      log := ?_
      count := ?_
      acked := kept.acked
      offered := Nat.le_succ_of_le kept.offered
      copied := ?_
      answers := fun id call found => kept.answers_mono (kept.answers id call found)
        (Nat.le_succ _) (Nat.le_refl _) fun n old => through_concat (newest n old) }
    · intro e member
      rcases mem_append.mp member with member | member
      · exact (kept.numbered e member).imp id Nat.le_succ_of_le
      · rw [mem_singleton.mp member]
        exact ⟨Nat.succ_pos _, Nat.le_refl _⟩
    · rw [after_concat (newest _ (Nat.le_trans kept.acked kept.offered)), kept.log]
    · rw [kept.count, length_append]
      rfl
    · intro e member passed
      rcases mem_append.mp member with member | member
      · exact kept.copied e member passed
      · rw [mem_singleton.mp member] at passed
        exact absurd (newest _ kept.offered) (Nat.not_lt.mpr passed)

theorem World.Kept.read_offer (kept : w.Kept) {op pid : Nat} :
    Offer w.slot w.committed w.slot.accessAcked
      { w.slot.answer op pid with event := w.slot.accessLog.take accessMax }.close := by
  have front : w.slot.accessLog.take accessMax <+:
      after AccessEvent.seq w.slot.accessAcked w.committed := by
    rw [← kept.log]
    exact take_prefix _ _
  refine ⟨kept.acked, ?_, kept.ascending.through_last front⟩
  rcases eq_nil_or_concat (w.slot.accessLog.take accessMax) with none_ | ⟨earlier, e, some_⟩
  · rw [AccessLog.close_cursor, none_]
    exact Nat.le_trans kept.acked kept.offered
  · rw [concat_eq_append] at some_
    rw [AccessLog.close_cursor, some_, last_concat]
    have member : e ∈ after AccessEvent.seq w.slot.accessAcked w.committed :=
      front.subset (by rw [some_]; simp)
    exact (kept.numbered e (mem_after.mp member).1).2

theorem World.Kept.answers_call (kept : w.Kept) {entered : Nat} {call' : Call}
    (counter : w.slot.vacSeqCtr ≤ s'.vacSeqCtr) (offered : w.slot.accessOffered ≤ s'.accessOffered)
    (here : call'.Answers w.slot w.committed) :
    ∀ id call, (if id = entered then some call' else w.calls id) = some call →
      call.Answers s' w.committed := by
  intro id call found
  split at found
  · cases Option.some.inj found
    exact kept.answers_mono here counter offered fun _ _ => rfl
  · exact kept.answers_mono (kept.answers id call found) counter offered fun _ _ => rfl

theorem World.Kept.control (kept : w.Kept) (task : Option Nat) (current : Nat) (mm : Bool)
    (arg : Option AccessRequest) : (w.control task current mm arg).Kept := by
  have moved := ctlAccess_moves w.slot task current mm arg
  unfold World.control
  revert moved
  generalize w.slot.ctlAccess task current mm arg = result
  obtain ⟨slot', answer⟩ := result
  intro moved
  dsimp only at moved ⊢
  cases moved with
  | refused =>
    exact { kept with
      answers := kept.answers_call (Nat.le_refl _) (Nat.le_refl _) nofun }
  | informed info op =>
    refine { kept with answers := kept.answers_call (Nat.le_refl _) (Nat.le_refl _) ?_ }
    rintro out ⟨⟩
    refine ⟨_, rfl, op.trans info.symm, fun read => ?_⟩
    rw [info] at read
    cases read
  | reads op healthy cursor =>
    refine { kept with answers := kept.answers_call (Nat.le_refl _) (Nat.le_refl _) ?_ }
    rintro out ⟨⟩
    refine ⟨_, rfl, rfl, fun _ => ?_⟩
    rw [cursor]
    exact kept.read_offer
  | @acks rq out op healthy onward offered answers =>
    have log : w.slot.accessLog.dropWhile (fun e => e.seq ≤ rq.cursor) =
        after AccessEvent.seq rq.cursor w.committed := by
      rw [kept.log, kept.ascending.after.dropWhile_passed, after_after onward]
    refine {
      kept with
      log := log
      count := ?_
      acked := offered
      answers := kept.answers_call (Nat.le_refl _) (Nat.le_refl _) ?_ }
    · have shorter :=
        (dropWhile_suffix (l := w.slot.accessLog) fun e => e.seq ≤ rq.cursor).length_le
      have count := kept.count
      dsimp only
      omega
    · rintro out ⟨⟩
      refine ⟨_, rfl, answers.trans op.symm, fun read => ?_⟩
      rw [op] at read
      cases read

theorem World.Kept.copyOut (kept : w.Kept) {call : Nat} {fault : Bool}
    (step : w.copyOut call fault = some w') : w'.Kept := by
  unfold World.copyOut at step
  split at step
  case h_2 => cases step
  next arg out found =>
  split at step
  · cases Option.some.inj step
    exact { kept with
      answers := kept.answers_call (Nat.le_refl _) (Nat.le_refl _) nofun }
  cases Option.some.inj step
  have here : Call.Answers w.slot w.committed ⟨arg, .returned (.ok out)⟩ :=
    fun answer returned => kept.answers call _ found answer returned
  by_cases read : out.op = accessRead
  · obtain ⟨rq, -, op, offers⟩ := here out rfl
    have offer := offers (op.symm.trans read)
    unfold MmSlot.publish
    rw [if_pos read, if_pos read]
    refine {
      kept with
      acked := Nat.le_trans kept.acked (Nat.le_max_left _ _)
      offered := Nat.max_le.mpr ⟨kept.offered, offer.numbered⟩
      copied := ?_
      answers := kept.answers_call (Nat.le_refl _) (Nat.le_max_left _ _) here }
    -- An event up to the new cursor was offered before or is in the batch.
    intro e member passed
    by_cases before : e.seq ≤ w.slot.accessOffered
    · exact mem_append_left _ (kept.copied e member before)
    · have now : e.seq ≤ out.cursor := by
        dsimp only at passed
        omega
      have inside := mem_through.mpr ⟨member, now⟩
      rw [offer.batch] at inside
      rcases mem_append.mp inside with inside | inside
      · exact mem_append_left _
          (kept.copied e member (Nat.le_trans (mem_through.mp inside).2 offer.offered))
      · exact mem_append_right _ inside
  · unfold MmSlot.publish
    rw [if_neg read, if_neg read]
    exact { kept with answers := kept.answers_call (Nat.le_refl _) (Nat.le_refl _) here }

end Vmctx.Journal
