import Vmctx.Journal.Kept
/-!
# The executor's cursor

`SyncMove` lists the stages of `access_sync`, and `Synced` what they keep: a cursor that has not
failed has applied what it has passed, a batch in hand carries on from there, and a failed cursor
rests on a front of what was committed.
-/

namespace Vmctx.Journal

open Vmctx.System.NumberedLog

def World.passed (w : World) (cursor : Nat) : List WireEvent :=
  (through AccessEvent.seq cursor w.committed).map AccessEvent.wire

def World.Applies (w : World) (c : AccessCursor) : Prop :=
  match w.sync with
  | .idle => w.applied = w.passed c.acknowledged
  | .reading => w.applied = w.passed c.acknowledged
  | .applying batch =>
    w.applied = w.passed c.acknowledged ∧ batch.cursor ≤ w.slot.vacSeqCtr ∧
      w.passed batch.cursor = w.passed c.acknowledged ++ batch.event
  | .acking batch => batch.cursor ≤ w.slot.vacSeqCtr ∧ w.applied = w.passed batch.cursor

/-- A cursor that has not failed has applied what it has passed; a failed one is at rest. -/
structure World.Synced (w : World) : Prop where
  fresh : w.cursor = none → w.sync = .idle ∧ w.applied = []
  owned : ∀ c, w.cursor = some c → c.identity = w.as ∧ w.as ≠ 0
  numbered : ∀ c, w.cursor = some c → c.acknowledged ≤ w.slot.vacSeqCtr
  working : ∀ c, w.cursor = some c → c.failed = none → w.Applies c
  failed : ∀ c, w.cursor = some c → c.failed ≠ none →
    w.sync = .idle ∧ w.applied <+: w.committed.map AccessEvent.wire

variable {w w' : World} {c : AccessCursor} {delivery : Delivery}

theorem World.Kept.passed_prefix (kept : w.Kept) (cursor : Nat) :
    w.passed cursor <+: w.committed.map AccessEvent.wire :=
  kept.ascending.through_prefix.map _

theorem World.Synced.mono (synced : w.Synced)
    (executor : w'.cursor = w.cursor ∧ w'.as = w.as ∧ w'.sync = w.sync ∧ w'.applied = w.applied)
    (counter : w.slot.vacSeqCtr ≤ w'.slot.vacSeqCtr) (grows : w.committed <+: w'.committed)
    (same : ∀ c ≤ w.slot.vacSeqCtr,
      through AccessEvent.seq c w'.committed = through AccessEvent.seq c w.committed) :
    w'.Synced := by
  obtain ⟨cursor, as, sync, applied⟩ := executor
  have passed : ∀ c ≤ w.slot.vacSeqCtr, w'.passed c = w.passed c := fun c old => by
    rw [World.passed, same c old, World.passed]
  refine ⟨?_, ?_, ?_, ?_, ?_⟩
  · rw [cursor, sync, applied]
    exact synced.fresh
  · rw [cursor, as]
    exact synced.owned
  · rw [cursor]
    exact fun c found => Nat.le_trans (synced.numbered c found) counter
  · rw [cursor]
    intro c found alive
    have old := passed _ (synced.numbered c found)
    have applies := synced.working c found alive
    unfold World.Applies at applies ⊢
    rw [sync, applied]
    split <;> rename_i at_ <;> rw [at_] at applies <;> dsimp only at applies
    · rw [old]
      exact applies
    · rw [old]
      exact applies
    · rw [old, passed _ applies.2.1]
      exact ⟨applies.1, Nat.le_trans applies.2.1 counter, applies.2.2⟩
    · rw [passed _ applies.1]
      exact ⟨Nat.le_trans applies.1 counter, applies.2⟩
  · rw [cursor, sync, applied]
    exact fun c found broken =>
      ⟨(synced.failed c found broken).1, (synced.failed c found broken).2.trans (grows.map _)⟩

theorem World.Kept.received (kept : w.Kept) {call : Nat} {reply : WireReply}
    (arrived : w.receive (w.request accessRead c.acknowledged) (.answered call) = some reply)
    (accepted : readAccepted c reply = true) :
    reply.batch.cursor ≤ w.slot.vacSeqCtr ∧
      w.passed reply.batch.cursor = w.passed c.acknowledged ++ reply.batch.event := by
  simp only [World.receive] at arrived
  split at arrived
  case h_2 => cases arrived
  next arg result found =>
  split at arrived
  case isFalse => cases arrived
  next same =>
  cases Option.some.inj arrived
  cases result with
  | error errno => cases accepted
  | ok log =>
    obtain ⟨rq, carried, op, offers⟩ := kept.answers call _ found log rfl
    rw [← Option.some.inj carried, same] at offers
    have offer := offers rfl
    simp only [serveAccess] at accepted ⊢
    split at accepted
    · cases accepted
    · next sent =>
      rw [if_neg sent]
      refine ⟨offer.numbered, ?_⟩
      rw [World.passed, offer.batch, List.map_append]
      rfl

/-- The steps of `access_sync`. -/
inductive SyncMove (w : World) : World → Prop
  | refuses {errno : Errno} (idle : w.sync = .idle)
      (unused : w.cursor = none ∨ ∃ c, w.cursor = some c ∧ (w.as = 0 ∨ c.failed ≠ none)) :
      SyncMove w { w with returns := w.returns ++ [some errno] }
  | creates (fresh : w.cursor = none) (named : w.as ≠ 0) :
      SyncMove w { w with cursor := some ⟨w.as, 0, none⟩, sync := .reading }
  | asks {c : AccessCursor} (idle : w.sync = .idle) (cursor : w.cursor = some c)
      (alive : c.failed = none) : SyncMove w { w with sync := .reading }
  | fails {c : AccessCursor} {came : List WireEvent} (cursor : w.cursor = some c)
      (busy : w.sync ≠ .idle)
      (some_ : came = [] ∨ ∃ batch, w.sync = .applying batch ∧ came <+: batch.event) :
      SyncMove w ({ w with applied := w.applied ++ came }.fail c)
  | ends {c : AccessCursor} (cursor : w.cursor = some c) (reading : w.sync = .reading) :
      SyncMove w w.succeed
  | arrives {c : AccessCursor} {call : Nat} {reply : WireReply} (cursor : w.cursor = some c)
      (reading : w.sync = .reading)
      (arrived : w.receive (w.request accessRead c.acknowledged) (.answered call) = some reply)
      (accepted : readAccepted c reply = true) :
      SyncMove w { w with sync := .applying reply.batch }
  | applies {c : AccessCursor} {batch : WireBatch} (cursor : w.cursor = some c)
      (applying : w.sync = .applying batch) :
      SyncMove w { w with applied := w.applied ++ batch.event, sync := .acking batch }
  | acknowledges {c : AccessCursor} {batch : WireBatch} {sync : SyncPc}
      {returns : List (Option Errno)} (cursor : w.cursor = some c) (acking : w.sync = .acking batch)
      (goes : sync = .reading ∨ sync = .idle) (fine : ∀ r ∈ returns, r = none) :
      SyncMove w { w with
        cursor := some { c with acknowledged := batch.cursor }
        sync := sync
        returns := w.returns ++ returns }

theorem syncStart_moves {error : Option Errno} (step : w.syncStart error = some w') :
    SyncMove w w' := by
  unfold World.syncStart at step
  split at step
  case h_2 => cases step
  next idle =>
  split at step
  · next unnamed =>
    cases Option.some.inj step
    refine .refuses idle ?_
    cases cursor : w.cursor with
    | none => exact .inl rfl
    | some c => exact .inr ⟨c, rfl, .inl unnamed⟩
  next named =>
  split at step
  · next fresh =>
    cases Option.some.inj step
    exact .refuses idle (.inl fresh)
  · next fresh =>
    cases Option.some.inj step
    exact .creates fresh named
  next c cursor =>
  split at step
  · next errno broken =>
    cases Option.some.inj step
    exact .refuses idle (.inr ⟨c, cursor, .inr (by simp [broken])⟩)
  · next alive =>
    cases Option.some.inj step
    exact .asks idle cursor alive

theorem readReply_moves (step : w.readReply delivery = some w') : SyncMove w w' := by
  unfold World.readReply at step
  split at step
  case h_2 => cases step
  next c reading cursor =>
  have fails : SyncMove w (w.fail c) := by
    simpa using @SyncMove.fails w c [] cursor (by simp [reading]) (.inl rfl)
  split at step
  · split at step
    · cases step
    · cases Option.some.inj step
      exact fails
  · next call reply arrived =>
    split at step
    · next accepted =>
      split at step <;> cases Option.some.inj step
      · exact .ends cursor reading
      · exact .arrives cursor reading arrived accepted
    · cases Option.some.inj step
      exact fails
  · cases step

theorem apply_moves {applier : Applier} (step : w.apply applier = some w') : SyncMove w w' := by
  unfold World.apply at step
  split at step
  case h_2 => cases step
  next batch c applying cursor =>
  have front := accessApplyBatch_prefix applier w.as batch.event
  dsimp only at step
  split at step
  · next all =>
    cases Option.some.inj step
    rw [front.2 all]
    exact .applies cursor applying
  · cases Option.some.inj step
    exact .fails cursor (by simp [applying]) (.inr ⟨batch, applying, front.1⟩)

theorem ackReply_moves (step : w.ackReply delivery = some w') : SyncMove w w' := by
  unfold World.ackReply at step
  split at step
  case h_2 => cases step
  next batch c acking cursor =>
  split at step
  case h_2 => cases step
  next reply arrived =>
  split at step
  · dsimp only at step
    split at step
    · cases Option.some.inj step
      exact @SyncMove.acknowledges w c batch .idle [none] cursor acking (.inr rfl) (by simp)
    · cases Option.some.inj step
      simpa using
        @SyncMove.acknowledges w c batch .reading [] cursor acking (.inl rfl) (by simp)
  · cases Option.some.inj step
    simpa using @SyncMove.fails w c [] cursor (by simp [acking]) (.inl rfl)

def World.source (w : World) :
    MmSlot × (Nat → Option Call) × List AccessEvent × List AccessEvent :=
  (w.slot, w.calls, w.committed, w.copied)

theorem SyncMove.source (move : SyncMove w w') : w'.source = w.source := by
  cases move <;> rfl

theorem World.Kept.congr (kept : w.Kept) (same : w'.source = w.source) : w'.Kept := by
  simp only [World.source, Prod.mk.injEq] at same
  obtain ⟨slot, calls, committed, copied⟩ := same
  constructor
  · rw [committed]
    exact kept.ascending
  · rw [committed, slot]
    exact kept.numbered
  · rw [committed, slot]
    exact kept.log
  · rw [slot]
    exact kept.count
  · rw [slot]
    exact kept.acked
  · rw [slot]
    exact kept.offered
  · rw [committed, copied, slot]
    exact kept.copied
  · rw [committed, calls, slot]
    exact kept.answers

theorem World.Synced.of_cursor (cursor : w.cursor = some c) (owned : c.identity = w.as ∧ w.as ≠ 0)
    (numbered : c.acknowledged ≤ w.slot.vacSeqCtr) (working : c.failed = none → w.Applies c)
    (failed : c.failed ≠ none → w.sync = .idle ∧ w.applied <+: w.committed.map AccessEvent.wire) :
    w.Synced := by
  have only : ∀ {other}, w.cursor = some other → other = c :=
    fun found => Option.some.inj (found.symm.trans cursor)
  constructor
  · intro none_
    rw [cursor] at none_
    cases none_
  · intro other found
    rw [only found]
    exact owned
  · intro other found
    rw [only found]
    exact numbered
  · intro other found
    rw [only found]
    exact working
  · intro other found
    rw [only found]
    exact failed

theorem World.Kept.passed_zero (kept : w.Kept) : w.passed 0 = [] := by
  refine List.map_eq_nil_iff.mpr (List.filter_eq_nil_iff.mpr fun e member => ?_)
  have := (kept.numbered e member).1
  simp only [decide_eq_true_eq]
  omega

theorem World.Synced.applied_prefix (synced : w.Synced) (kept : w.Kept) :
    w.applied <+: w.committed.map AccessEvent.wire := by
  cases cursor : w.cursor with
  | none =>
    rw [(synced.fresh cursor).2]
    exact List.nil_prefix
  | some c =>
    by_cases broken : c.failed = none
    · have applies := synced.working c cursor broken
      unfold World.Applies at applies
      split at applies
      · rw [applies]
        exact kept.passed_prefix _
      · rw [applies]
        exact kept.passed_prefix _
      · rw [applies.1]
        exact kept.passed_prefix _
      · rw [applies.2]
        exact kept.passed_prefix _
    · exact (synced.failed c cursor broken).2

theorem World.Synced.move (kept : w.Kept) (synced : w.Synced) (move : SyncMove w w') :
    w'.Synced := by
  -- A busy executor has a cursor that has not failed.
  have working : ∀ {c}, w.cursor = some c → w.sync ≠ .idle → c.failed = none ∧ w.Applies c := by
    intro c cursor busy
    have alive : c.failed = none := by
      by_contra broken
      exact busy (synced.failed c cursor broken).1
    exact ⟨alive, synced.working c cursor alive⟩
  cases move with
  | refuses idle unused =>
    exact ⟨synced.fresh, synced.owned, synced.numbered, synced.working, synced.failed⟩
  | creates fresh named =>
    refine .of_cursor rfl ⟨rfl, named⟩ (Nat.zero_le _) (fun _ => ?_) fun broken => absurd rfl broken
    exact (synced.fresh fresh).2.trans kept.passed_zero.symm
  | asks idle cursor alive =>
    refine .of_cursor cursor (synced.owned _ cursor) (synced.numbered _ cursor) (fun _ => ?_)
      fun broken => absurd alive broken
    have applies := synced.working _ cursor alive
    simp only [World.Applies, idle] at applies
    exact applies
  | @fails c came cursor busy some_ =>
    refine .of_cursor rfl (synced.owned c cursor) (synced.numbered c cursor)
      nofun fun _ => ⟨rfl, ?_⟩
    obtain ⟨alive, applies⟩ := working cursor busy
    show w.applied ++ came <+: w.committed.map AccessEvent.wire
    rcases some_ with rfl | ⟨batch, applying, front⟩
    · rw [List.append_nil]
      exact synced.applied_prefix kept
    · simp only [World.Applies, applying] at applies
      refine List.IsPrefix.trans ?_ (kept.passed_prefix batch.cursor)
      rw [applies.1, applies.2.2]
      exact (List.prefix_append_right_inj _).mpr front
  | ends cursor reading =>
    obtain ⟨alive, applies⟩ := working cursor (by simp [reading])
    refine .of_cursor cursor (synced.owned _ cursor) (synced.numbered _ cursor) (fun _ => ?_)
      fun broken => absurd alive broken
    simp only [World.Applies, reading] at applies
    exact applies
  | arrives cursor reading arrived accepted =>
    obtain ⟨alive, applies⟩ := working cursor (by simp [reading])
    refine .of_cursor cursor (synced.owned _ cursor) (synced.numbered _ cursor) (fun _ => ?_)
      fun broken => absurd alive broken
    simp only [World.Applies, reading] at applies
    exact ⟨applies, kept.received arrived accepted⟩
  | @applies c batch cursor applying =>
    obtain ⟨alive, applies⟩ := working cursor (by simp [applying])
    refine .of_cursor cursor (synced.owned _ cursor) (synced.numbered _ cursor) (fun _ => ?_)
      fun broken => absurd alive broken
    simp only [World.Applies, applying] at applies
    refine ⟨applies.2.1, ?_⟩
    show w.applied ++ batch.event = w.passed batch.cursor
    rw [applies.1, applies.2.2]
  | @acknowledges c batch sync returns cursor acking goes fine =>
    obtain ⟨alive, applies⟩ := working cursor (by simp [acking])
    simp only [World.Applies, acking] at applies
    refine .of_cursor rfl (synced.owned c cursor) applies.1 (fun _ => ?_)
      fun broken => absurd alive broken
    rcases goes with rfl | rfl <;> exact applies.2

end Vmctx.Journal
