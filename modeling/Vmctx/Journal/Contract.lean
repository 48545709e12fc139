import Vmctx.Journal.Synced
/-!
# What the exchange of an access journal guarantees

The journal holds what lies ahead of the acknowledged cursor, and the answer of a `READ` is a batch
from its front. So an executor that applies the batches of its own cursor in turn has applied what
its cursor has passed, however replies are lost, and once it is in doubt it never applies again.
-/

namespace Vmctx.Journal

open Vmctx.System.NumberedLog List

/-! ## Whole runs -/

def Act.ofSync : Act → Bool
  | .syncStart _ | .readReply _ | .apply _ | .ackReply _ => true
  | _ => false

variable {a : Act} {w w' : World} {c : AccessCursor}

theorem step_syncs (step : w.next a = some w') (own : a.ofSync = true) : SyncMove w w' := by
  cases a with
  | syncStart error => exact syncStart_moves step
  | readReply delivery => exact readReply_moves step
  | apply applier => exact apply_moves step
  | ackReply delivery => exact ackReply_moves step
  | commit | note | control | copyOut => cases own

def World.executor (w : World) :
    Nat × Option AccessCursor × SyncPc × List WireEvent × List (Option Errno) :=
  (w.as, w.cursor, w.sync, w.applied, w.returns)

theorem step_executor (step : w.next a = some w') (other : a.ofSync = false) :
    w'.executor = w.executor := by
  cases a with
  | commit c | note | control task current mm arg => cases Option.some.inj step; rfl
  | copyOut call fault =>
    simp only [World.next, World.copyOut] at step
    split at step
    · split at step <;> cases Option.some.inj step <;> rfl
    · cases step
  | syncStart | readReply | apply | ackReply => cases other

inductive SlotMove (w : World) : Act → MmSlot → Prop
  | rests {a : Act} : SlotMove w a w.slot
  | commits {c : Commit} {s' : MmSlot} (move : CommitMove w.slot c s') : SlotMove w (.commit c) s'
  | notes : SlotMove w .note w.slot.mmlogNote
  | controls {task : Option Nat} {current : Nat} {mm : Bool} {arg : Option AccessRequest}
      {s' : MmSlot} {answer : Except Errno AccessLog} (move : ControlMove w.slot arg s' answer) :
      SlotMove w (.control task current mm arg) s'
  | publishes {call : Nat} {out : AccessLog} :
      SlotMove w (.copyOut call false) (w.slot.publish out)

theorem step_slot (step : w.next a = some w') : SlotMove w a w'.slot := by
  by_cases own : a.ofSync = true
  · have same := (step_syncs step own).source
    simp only [World.source, Prod.mk.injEq] at same
    rw [same.1]
    exact .rests
  cases a with
  | commit c =>
    cases Option.some.inj step
    exact .commits (accessCommit_moves w.slot c)
  | note =>
    cases Option.some.inj step
    exact .notes
  | control task current mm arg =>
    cases Option.some.inj step
    exact .controls (ctlAccess_moves w.slot task current mm arg)
  | copyOut call fault =>
    simp only [World.next, World.copyOut] at step
    split at step
    · split at step <;> cases Option.some.inj step
      · exact .rests
      · next open_ =>
        rw [Bool.not_eq_true] at open_
        rw [open_]
        exact .publishes
    · cases step
  | syncStart | readReply | apply | ackReply => exact absurd rfl own

theorem MmSlot.publish_eq (s : MmSlot) (out : AccessLog) :
    s.publish out = { s with accessOffered := (s.publish out).accessOffered } := by
  unfold MmSlot.publish
  split <;> rfl

theorem step_counter (step : w.next a = some w') : w.slot.vacSeqCtr ≤ w'.slot.vacSeqCtr := by
  have moved := step_slot step
  generalize w'.slot = s' at moved ⊢
  cases moved with
  | rests => exact Nat.le_refl _
  | commits move =>
    cases move with
    | ignored => exact Nat.le_refl _
    | poisoned advanced => exact advanced
    | appended => exact Nat.le_succ _
  | notes => exact Nat.le_succ _
  | controls move => cases move <;> exact Nat.le_refl _
  | publishes => exact Nat.le_of_eq (congrArg MmSlot.vacSeqCtr (w.slot.publish_eq _)).symm

theorem step_commits (step : w.next a = some w') :
    w'.committed = w.committed ∨
      ∃ e, w.slot.vacSeqCtr < e.seq ∧ w'.committed = w.committed ++ [e] := by
  by_cases own : a.ofSync = true
  · have same := (step_syncs step own).source
    simp only [World.source, Prod.mk.injEq] at same
    exact .inl same.2.2.1
  cases a with
  | commit c =>
    have moved := accessCommit_moves w.slot c
    cases Option.some.inj step
    revert moved
    generalize w.slot.accessCommit c = slot'
    intro moved
    cases moved with
    | ignored why | poisoned advanced => exact .inl (by rw [drop_length, append_nil])
    | appended healthy =>
      exact .inr ⟨w.slot.commitEvent c, Nat.lt_succ_self _, by rw [drop_left]⟩
  | note | control task current mm arg =>
    cases Option.some.inj step
    exact .inl rfl
  | copyOut call fault =>
    simp only [World.next, World.copyOut] at step
    split at step
    · split at step <;> cases Option.some.inj step <;> exact .inl rfl
    · cases step
  | syncStart | readReply | apply | ackReply => exact absurd rfl own

theorem step_through (step : w.next a = some w') {c : Nat} (old : c ≤ w.slot.vacSeqCtr) :
    through AccessEvent.seq c w'.committed = through AccessEvent.seq c w.committed := by
  rcases step_commits step with same | ⟨e, newer, grown⟩
  · rw [same]
  · rw [grown]
    exact through_concat (Nat.lt_of_le_of_lt old newer)

theorem World.Kept.step (kept : w.Kept) (step : w.next a = some w') : w'.Kept := by
  by_cases own : a.ofSync = true
  · exact kept.congr (step_syncs step own).source
  cases a with
  | commit c => exact kept.commit step
  | note =>
    cases Option.some.inj step
    exact {
      kept with
      numbered := fun e member => (kept.numbered e member).imp id Nat.le_succ_of_le
      offered := Nat.le_succ_of_le kept.offered
      answers := fun id call found => kept.answers_mono (kept.answers id call found)
        (Nat.le_succ _) (Nat.le_refl _) fun _ _ => rfl }
  | control task current mm arg =>
    cases Option.some.inj step
    exact kept.control task current mm arg
  | copyOut call fault => exact kept.copyOut step
  | syncStart | readReply | apply | ackReply => exact absurd rfl own

theorem World.Synced.step (kept : w.Kept) (synced : w.Synced) (step : w.next a = some w') :
    w'.Synced := by
  cases own : a.ofSync with
  | true => exact synced.move kept (step_syncs step own)
  | false =>
    have same := step_executor step own
    simp only [World.executor, Prod.mk.injEq] at same
    obtain ⟨as, cursor, sync, applied, -⟩ := same
    refine synced.mono ⟨cursor, as, sync, applied⟩ (step_counter step) ?_
      fun c old => step_through step old
    rcases step_commits step with same | ⟨e, -, grown⟩
    · exact ⟨[], by rw [append_nil, same]⟩
    · rw [grown]
      exact prefix_append _ _

structure World.Good (w : World) : Prop where
  kept : w.Kept
  synced : w.Synced

theorem World.Good.start (monTgid traceId as : Nat) : (World.start monTgid traceId as).Good where
  kept := {
    ascending := List.Pairwise.nil
    numbered := nofun
    log := rfl
    count := rfl
    acked := Nat.le_refl _
    offered := Nat.le_refl _
    copied := nofun
    answers := nofun }
  synced := {
    fresh := fun _ => ⟨rfl, rfl⟩
    owned := nofun
    numbered := nofun
    working := nofun
    failed := nofun }

theorem Reached.good (reached : Reached w) : w.Good := by
  obtain ⟨monTgid, traceId, as, run⟩ := reached
  refine run.invariant (fun _ _ _ good step => ?_) (World.Good.start monTgid traceId as)
  exact ⟨good.kept.step step, good.synced.step good.kept step⟩

theorem step_failed (synced : w.Synced) (cursor : w.cursor = some c) (broken : c.failed ≠ none)
    (step : w.next a = some w') :
    w'.cursor = some c ∧ w'.applied = w.applied ∧
      ∃ returns, w'.returns = w.returns ++ returns ∧ ∀ r ∈ returns, r ≠ none := by
  have idle := (synced.failed c cursor broken).1
  cases own : a.ofSync with
  | false =>
    have same := step_executor step own
    simp only [World.executor, Prod.mk.injEq] at same
    obtain ⟨-, same, -, applied, returns⟩ := same
    exact ⟨same.trans cursor, applied, [], by rw [returns, append_nil], by simp⟩
  | true =>
    have only : ∀ {other}, w.cursor = some other → other = c :=
      fun found => Option.some.inj (found.symm.trans cursor)
    cases step_syncs step own with
    | refuses => exact ⟨cursor, rfl, [some _], rfl, by simp⟩
    | creates fresh => exact absurd (cursor.symm.trans fresh) (by simp)
    | asks _ found alive => exact absurd (only found ▸ alive) broken
    | fails _ busy => exact absurd idle busy
    | ends _ reading | arrives _ reading => exact absurd (idle.symm.trans reading) (by simp)
    | applies _ applying => exact absurd (idle.symm.trans applying) (by simp)
    | acknowledges _ acking => exact absurd (idle.symm.trans acking) (by simp)

theorem later_failed {later : World} (good : w.Good) (cursor : w.cursor = some c)
    (broken : c.failed ≠ none) (run : System.Reach Step w later) :
    later.cursor = some c ∧ later.applied = w.applied ∧
      ∃ returns, later.returns = w.returns ++ returns ∧ ∀ r ∈ returns, r ≠ none := by
  suffices both : later.Good ∧ later.cursor = some c ∧ later.applied = w.applied ∧
      ∃ returns, later.returns = w.returns ++ returns ∧ ∀ r ∈ returns, r ≠ none from both.2
  induction run with
  | refl => exact ⟨good, cursor, rfl, [], (append_nil _).symm, by simp⟩
  | step earlier next ih =>
    obtain ⟨good, cursor, applied, returns, so_far, errors⟩ := ih
    obtain ⟨same, still, more, longer, too⟩ := step_failed good.synced cursor broken next
    refine ⟨⟨good.kept.step next, good.synced.step good.kept next⟩, same, still.trans applied,
      returns ++ more, ?_, ?_⟩
    · rw [longer, so_far, append_assoc]
    · intro r member
      rcases mem_append.mp member with member | member
      · exact errors r member
      · exact too r member

/-- A call of `access_sync` that returns an error leaves no cursor in use. -/
theorem step_returns_error (synced : w.Synced) (step : w.next a = some w') {errno : Errno}
    (returns : w'.returns = w.returns ++ [some errno]) :
    ∀ c, w'.cursor = some c → c.failed ≠ none := by
  have grew : w'.returns ≠ w.returns := by
    rw [returns]
    simp
  cases own : a.ofSync with
  | false =>
    have same := step_executor step own
    simp only [World.executor, Prod.mk.injEq] at same
    exact absurd same.2.2.2.2 grew
  | true =>
    have move := step_syncs step own
    cases move with
    | refuses idle unused =>
      intro c found
      rcases unused with fresh | ⟨other, there, unnamed | broken⟩
      · exact absurd (found.symm.trans fresh) (by simp)
      · exact absurd unnamed (synced.owned other there).2
      · exact Option.some.inj (there.symm.trans found) ▸ broken
    | creates | asks | arrives | applies => exact absurd rfl grew
    | fails =>
      rintro c ⟨⟩
      simp
    | ends => simp [World.succeed] at returns
    | acknowledges cursor acking goes fine =>
      rw [append_cancel_left_eq] at returns
      exact absurd (fine (some errno) (by rw [returns]; simp)) (by simp)

theorem step_error (step : w.next a = some w') (failed : w.slot.accessError ≠ none) :
    w'.slot.accessError ≠ none := by
  have moved := step_slot step
  generalize w'.slot = s' at moved ⊢
  cases moved with
  | rests | notes => exact failed
  | commits move =>
    cases move with
    | ignored => exact failed
    | poisoned => simp
    | appended healthy => exact absurd healthy failed
  | controls move => cases move <;> exact failed
  | publishes =>
    rw [MmSlot.publish_eq]
    exact failed

theorem step_removes (step : w.next a = some w') {e : AccessEvent} (before : e ∈ w.slot.accessLog)
    (gone : e ∉ w'.slot.accessLog) :
    ∃ task current mm rq, a = .control task current mm (some rq) ∧ rq.op = accessAck ∧
      e.seq ≤ rq.cursor ∧ w.slot.accessAcked ≤ rq.cursor ∧ rq.cursor ≤ w.slot.accessOffered := by
  have moved := step_slot step
  generalize w'.slot = s' at moved gone
  cases moved with
  | rests | notes => exact absurd before gone
  | commits move =>
    cases move with
    | ignored | poisoned => exact absurd before gone
    | appended => exact absurd (mem_append_left _ before) gone
  | controls move =>
    cases move with
    | refused | informed | reads => exact absurd before gone
    | @acks rq out op healthy onward offered =>
      refine ⟨_, _, _, rq, rfl, op, ?_, onward, offered⟩
      rw [← takeWhile_append_dropWhile (p := fun e : AccessEvent => e.seq ≤ rq.cursor)
        (l := w.slot.accessLog)] at before
      rcases mem_append.mp before with passed | kept
      · simpa using all_eq_true.mp all_takeWhile e passed
      · exact absurd kept gone
  | publishes =>
    rw [MmSlot.publish_eq] at gone
    exact absurd before gone

theorem ctlAccess_refuses {s : MmSlot} (failed : s.accessError ≠ none) (task : Option Nat)
    (current : Nat) (mm : Bool) {rq : AccessRequest} (op : rq.op = accessRead ∨ rq.op = accessAck) :
    ∃ errno, (s.ctlAccess task current mm (some rq)).2 = .error errno := by
  have moved := ctlAccess_moves s task current mm (some rq)
  revert moved
  generalize s.ctlAccess task current mm (some rq) = result
  obtain ⟨s', answer⟩ := result
  intro moved
  dsimp only at moved ⊢
  cases moved with
  | refused => exact ⟨_, rfl⟩
  | informed info =>
    rw [info] at op
    simp [accessInfo, accessRead, accessAck] at op
  | reads _ healthy | acks _ healthy => exact absurd healthy failed

theorem commit_recorded {c : Commit} (step : w.next (.commit c) = some w') (room : c.start < c.end_)
    (live : c.mmLive = true) :
    w'.committed = w.committed ++ [w.slot.commitEvent c] ∨ w'.slot.accessError ≠ none := by
  have moved := accessCommit_moves w.slot c
  cases Option.some.inj step
  dsimp only
  generalize w.slot.accessCommit c = s' at moved ⊢
  cases moved with
  | ignored why =>
    rcases why with empty | dead | failed
    · exact absurd room (Nat.not_lt.mpr empty)
    · exact absurd live (by rw [dead]; simp)
    · exact .inr failed
  | poisoned => exact .inr (by simp)
  | appended => exact .inl (by rw [drop_left])

/-! ## The contract -/

/-- What holds in every state of the exchange and of every step out of it. -/
structure World.Contract (w : World) : Prop where
  /-- The executor has applied, in order, without gap or repetition, a front of what was
  committed. -/
  applied : w.applied <+: w.committed.map AccessEvent.wire
  /-- A call that returns an error leaves the cursor failed. -/
  fails : ∀ a w' errno, Step w a w' → w'.returns = w.returns ++ [some errno] →
    ∀ c, w'.cursor = some c → c.failed ≠ none
  /-- Once the cursor has failed, nothing is applied any more and every call returns an error. -/
  final : ∀ c, w.cursor = some c → c.failed ≠ none → ∀ later, System.Reach Step w later →
    later.cursor = some c ∧ later.applied = w.applied ∧
      ∃ returns, later.returns = w.returns ++ returns ∧ ∀ r ∈ returns, r ≠ none
  /-- An event leaves the log only by an acknowledgement of it. -/
  removes : ∀ a w', Step w a w' → ∀ e ∈ w.slot.accessLog, e ∉ w'.slot.accessLog →
    ∃ task current mm rq, a = .control task current mm (some rq) ∧ rq.op = accessAck ∧
      e.seq ≤ rq.cursor ∧ w.slot.accessAcked ≤ rq.cursor ∧ rq.cursor ≤ w.slot.accessOffered
  /-- An acknowledgement is accepted only within what was offered, and that was copied out. -/
  accepts : ∀ task current mm rq out, rq.op = accessAck →
    (w.slot.ctlAccess task current mm (some rq)).2 = .ok out →
    w.slot.accessAcked ≤ rq.cursor ∧ rq.cursor ≤ w.slot.accessOffered ∧
      ∀ e ∈ w.committed, e.seq ≤ rq.cursor → e ∈ w.copied
  /-- A `READ` changes nothing in its locked section, and nothing after it when its copy-out
  faults. -/
  faults : (∀ task current mm rq, rq.op = accessRead →
      (w.slot.ctlAccess task current mm (some rq)).1 = w.slot) ∧
    ∀ call w', Step w (.copyOut call true) w' → w' = { w with calls := w'.calls }
  /-- An event that is due is appended, or the journal has an error. -/
  missing : ∀ c w', Step w (.commit c) w' → c.start < c.end_ → c.mmLive = true →
    w'.committed = w.committed ++ [w.slot.commitEvent c] ∨ w'.slot.accessError ≠ none
  /-- A journal with an error refuses every later `READ` and `ACK`. -/
  poisoned : w.slot.accessError ≠ none → ∀ later, System.Reach Step w later →
    ∀ task current mm rq, rq.op = accessRead ∨ rq.op = accessAck →
      ∃ errno, (later.slot.ctlAccess task current mm (some rq)).2 = .error errno

/-- In every state of the exchange, changes of access are applied once, in order, or it has failed.
-/
theorem access_journal_contract {w : World} (reached : Reached w) : w.Contract := by
  have good := reached.good
  refine ⟨good.synced.applied_prefix good.kept, ?_, ?_, ?_, ?_, ⟨?_, ?_⟩, ?_, ?_⟩
  · intro a w' errno step returns
    exact step_returns_error good.synced step returns
  · intro c cursor broken later run
    exact later_failed good cursor broken run
  · intro a w' step e before gone
    exact step_removes step before gone
  · intro task current mm rq out op answer
    have moved := ctlAccess_moves w.slot task current mm (some rq)
    rw [answer] at moved
    generalize (w.slot.ctlAccess task current mm (some rq)).1 = s' at moved
    cases moved with
    | informed info => rw [info] at op; cases op
    | reads read => rw [read] at op; cases op
    | acks _ _ onward offered =>
      exact ⟨onward, offered,
        fun e member passed => good.kept.copied e member (Nat.le_trans passed offered)⟩
  · intro task current mm rq op
    have moved := ctlAccess_moves w.slot task current mm (some rq)
    generalize (w.slot.ctlAccess task current mm (some rq)).1 = s' at moved ⊢
    generalize (w.slot.ctlAccess task current mm (some rq)).2 = answer at moved
    cases moved with
    | refused | informed | reads => rfl
    | acks ack => rw [ack] at op; cases op
  · intro call w' step
    simp only [Step, System.Computed, World.next, World.copyOut] at step
    split at step
    · cases Option.some.inj step
      rfl
    · cases step
  · intro c w' step room live
    exact commit_recorded step room live
  · intro failed later run task current mm rq op
    have stays : later.slot.accessError ≠ none := by
      induction run with
      | refl => exact failed
      | step _ next ih => exact step_error next ih
    exact ctlAccess_refuses stays task current mm op

def synced : List Act :=
  [.commit ⟨0x1000, 0x2000, .unmap, 0, 1, true, false, none⟩, .syncStart none,
    .control (some 1) 7 true (some (serveRequest accessRead 3 0)), .copyOut 0 false,
    .readReply (.answered 0), .apply ⟨fun _ _ => [], fun _ _ _ => true⟩,
    .control (some 1) 7 true (some (serveRequest accessAck 3 1)), .copyOut 1 false,
    .ackReply (.answered 1)]

/-- A change is committed, read, applied and acknowledged. -/
theorem access_journal_contract_synced :
    ∃ w : World, w.Contract ∧
      (w.applied = [⟨1, 0x1000, 0x2000, 1, 0⟩] ∧ w.slot.accessLog = [] ∧ w.returns = [none]) := by
  have ran : (System.exec World.next (World.start 7 3 3) synced).any (fun w =>
      decide (w.applied = [⟨1, 0x1000, 0x2000, 1, 0⟩] ∧ w.slot.accessLog = [] ∧
        w.returns = [none])) = true := by decide
  obtain ⟨w, run, check⟩ := System.exec_exhibits ran
  exact ⟨w, access_journal_contract ⟨7, 3, 3, run⟩, of_decide_eq_true check⟩

end Vmctx.Journal
