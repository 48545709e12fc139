import Vmctx.System.Around
import Vmctx.System.Run
/-!
# Sleeping on the ownership channel

The channel's lock is a futex word with three values, so that `own_unlock` enters the kernel only
when a thread may sleep; a landing enters it only when a waiter is counted. Every access to a shared
word is one step, and others run between the steps of a thread. `FUTEX_WAIT` compares and sleeps at
once, a sleeper may return unwoken, and `FUTEX_WAKE` wakes whom it likes.
-/

namespace Vmctx.Ownership

open Vmctx.System List

/-! ## The lock -/

/-- Where a thread is in `own_lock` and `own_unlock`. -/
inductive LockPc
  | out
  /-- Before the exchange of the loop. -/
  | contends
  /-- Before `FUTEX_WAIT`. -/
  | waits
  | sleeps
  | holds
  /-- Before `FUTEX_WAKE`. -/
  | wakes
  deriving DecidableEq

/-- The word is 0 when free, 1 when held and 2 when held and maybe waited for. -/
structure Lock where
  word : UInt32
  threads : List LockPc

namespace Lock

/-- One access of `own_lock`, and from `holds` on of `own_unlock`. -/
def ownLock (word : UInt32) : LockPc → UInt32 × LockPc
  | .out => if word = 0 then (1, .holds) else (word, .contends)
  | .contends => (2, if word = 0 then .holds else .waits)
  | .waits => (word, if word = 2 then .sleeps else .contends)
  | .sleeps => (word, .contends)
  | .holds => (0, if word = 2 then .wakes else .out)
  | .wakes => (word, .out)

/-- `FUTEX_WAKE` of one thread, of none only when none sleeps. -/
def futexWake (threads : List LockPc) : Option Nat → Option (List LockPc)
  | none => if .sleeps ∈ threads then none else some threads
  | some j => if threads[j]? = some .sleeps then some (threads.set j .contends) else none

def next (s : Lock) : Nat × Option Nat → Option Lock
  | (i, woken) => do
    let pc ← s.threads[i]?
    let (word, new) := ownLock s.word pc
    let threads := s.threads.set i new
    (if pc = .wakes then futexWake threads woken else some threads).map (⟨word, ·⟩)

def holders (threads : List LockPc) : Nat := threads.count .holds

/-- The word tells whether the lock is held, and a sleeper is never forgotten: the holder is going
to wake, or a thread is about to wake or to try again. -/
structure Good (s : Lock) : Prop where
  held : holders s.threads = if s.word = 0 then 0 else 1
  awaited : .sleeps ∈ s.threads → s.word = 2 ∨ .contends ∈ s.threads ∨ .wakes ∈ s.threads

variable {s s' : Lock} {threads : List LockPc} {i : Nat} {pc : LockPc}

theorem holders_set (here : threads[i]? = some pc) (new : LockPc) :
    holders (threads.set i new) + (if pc = .holds then 1 else 0) =
      holders threads + if new = .holds then 1 else 0 := by
  simpa [holders, List.count] using countP_set (· == .holds) here new

/-- A held lock's word is set. -/
theorem Good.taken (good : s.Good) (here : s.threads[i]? = some .holds) : s.word ≠ 0 := by
  intro free
  have none := good.held
  rw [if_pos free] at none
  exact count_eq_zero.mp none (mem_of_getElem? here)

/-- The word is set when the lock is taken and cleared when its holder leaves it. -/
theorem ownLock_held {word : UInt32} (taken : pc = .holds → word ≠ 0) :
    (if (ownLock word pc).1 = 0 then 0 else 1) + (if pc = .holds then 1 else 0) =
      (if word = 0 then 0 else 1) + if (ownLock word pc).2 = .holds then 1 else 0 := by
  cases pc <;> grind [ownLock]

/-- A thread that stops being the one to wake a sleeper, by taking the lock or by clearing the word,
marks the word or goes on to wake. -/
theorem ownLock_awaited (word : UInt32) (other : pc ≠ .wakes) :
    (ownLock word pc).1 = 2 ∨ (ownLock word pc).2 = .contends ∨ (ownLock word pc).2 = .wakes ∨
      ((ownLock word pc).2 ≠ .sleeps ∧ pc ≠ .contends ∧ word ≠ 2) := by
  cases pc <;> grind [ownLock]

theorem Good.access (good : s.Good) (here : s.threads[i]? = some pc) (other : pc ≠ .wakes) :
    Good ⟨(ownLock s.word pc).1, s.threads.set i (ownLock s.word pc).2⟩ := by
  constructor
  · have follows := ownLock_held fun holds : pc = .holds => good.taken (holds ▸ here)
    have counts := holders_set here (ownLock s.word pc).2
    have held := good.held
    dsimp only
    omega
  · intro asleep
    have arrived := mem_set_self here (ownLock s.word pc).2
    obtain marked | contends | wakes | ⟨awake, left, unmarked⟩ := ownLock_awaited s.word other
    · exact .inl marked
    · exact .inr (.inl (contends ▸ arrived))
    · exact .inr (.inr (wakes ▸ arrived))
    · have before := (mem_or_eq_of_mem_set asleep).resolve_right awake.symm
      exact .inr <| ((good.awaited before).resolve_left unmarked).imp
        (mem_set_of_ne here · left.symm) (mem_set_of_ne here · other.symm)

/-- A woken thread contends again. -/
theorem Good.futexWake (good : s.Good) (here : s.threads[i]? = some .wakes) {woken : Option Nat}
    (step : futexWake (s.threads.set i .out) woken = some threads) : Good ⟨s.word, threads⟩ := by
  have left := (holders_set here .out).trans good.held
  cases woken with
  | none =>
    obtain ⟨awake, ⟨⟩⟩ := Option.ite_none_left_eq_some.mp step
    exact ⟨left, fun asleep => absurd asleep awake⟩
  | some j =>
    obtain ⟨there, ⟨⟩⟩ := Option.ite_none_right_eq_some.mp step
    exact ⟨(holders_set there .contends).trans left,
      fun _ => .inr (.inl (mem_set_self there .contends))⟩

theorem Good.next {act : Nat × Option Nat} (good : s.Good) (step : s.next act = some s') :
    s'.Good := by
  obtain ⟨pc, here, step⟩ := Option.bind_eq_some_iff.mp step
  obtain ⟨threads, woken, ⟨⟩⟩ := Option.map_eq_some_iff.mp step
  split at woken
  next wakes =>
    cases wakes
    exact good.futexWake here woken
  next other =>
    cases woken
    exact good.access here other

/-- For any number of threads and in every order of their steps, the channel's lock is held by at
most one, its word is zero exactly when nobody holds it, and no sleeper is forgotten: the holder is
marked to wake one, or a thread is about to wake one or to try for the lock itself. -/
theorem own_lock_excludes {n : Nat}
    (run : Reach (Computed Lock.next) ⟨0, List.replicate n .out⟩ s) :
    holders s.threads ≤ 1 ∧ (s.word = 0 ↔ holders s.threads = 0) ∧
      (.sleeps ∈ s.threads → (s.word = 2 ∧ .holds ∈ s.threads) ∨ .contends ∈ s.threads ∨
        .wakes ∈ s.threads) := by
  have start : Good ⟨0, List.replicate n .out⟩ := by
    constructor <;> simp [holders, count_replicate]
  have good : s.Good := run.invariant (fun _ _ _ => Good.next) start
  have held := good.held
  refine ⟨by split at held <;> omega, by split at held <;> simp_all, fun asleep => ?_⟩
  refine (good.awaited asleep).imp_left fun marked => ⟨marked, ?_⟩
  rw [if_neg (by simp [marked])] at held
  exact count_pos_iff.mp (Nat.lt_of_lt_of_eq Nat.one_pos held.symm)

/-- A thread sleeps while another holds the lock. -/
theorem own_lock_sleeper : ∃ s : Lock, .sleeps ∈ s.threads ∧ holders s.threads ≤ 1 := by
  have run := @exec_get_reach _ _ next ⟨0, List.replicate 2 .out⟩
    [(0, none), (1, none), (1, none), (1, none)] (by decide)
  exact ⟨_, by decide, (own_lock_excludes run).1⟩

end Lock

/-! ## Waiting for a landing -/

/-- Where a thread is in `own_wait` with the generation its caller read, or after the bump of
`own_land`, `own_abort` or `own_forget`. -/
inductive WaitPc
  | out
  /-- Counted in, before the load of the loop. -/
  | counted (gen : UInt32)
  /-- Before `FUTEX_WAIT`. -/
  | parks (gen : UInt32)
  | sleeps (gen : UInt32)
  /-- Before it is counted out. -/
  | leaves
  /-- Before the load of `own_gen_wake`. -/
  | bumped
  /-- Before `FUTEX_WAKE`. -/
  | wakes
  deriving DecidableEq

inductive WaitAct
  | wait (gen : UInt32)
  | land
  | expires
  | goes

def WaitPc.inside : WaitPc → Bool
  | .counted _ | .parks _ | .sleeps _ | .leaves => true
  | .out | .bumped | .wakes => false

/-- What `FUTEX_WAKE` of everybody does to a thread. -/
def WaitPc.woken : WaitPc → WaitPc
  | .sleeps gen => .counted gen
  | pc => pc

/-- One entry's futex word and count, and the threads that come to it. -/
structure Landing where
  gen : UInt32
  waiters : Nat
  threads : List WaitPc

namespace Landing

/-- One access of `own_wait`, or of the bump and `own_gen_wake` that end a landing. -/
def ownWait (gen : UInt32) (waiters : Nat) : WaitPc → WaitAct → Option (UInt32 × Nat × WaitPc)
  | .out, .wait g => some (gen, waiters + 1, .counted g)
  | .out, .land => some (gen + 1, waiters, .bumped)
  | .counted g, .goes => some (gen, waiters, if gen ≠ g then .leaves else .parks g)
  | .parks g, .goes => some (gen, waiters, if gen = g then .sleeps g else .counted g)
  | .parks _, .expires => some (gen, waiters, .leaves)
  | .sleeps g, .goes => some (gen, waiters, .counted g)
  | .leaves, .goes => some (gen, waiters - 1, .out)
  | .bumped, .goes => some (gen, waiters, if waiters ≠ 0 then .wakes else .out)
  | .wakes, .goes => some (gen, waiters, .out)
  | _, _ => none

def next (s : Landing) : Nat × WaitAct → Option Landing
  | (i, act) => do
    let pc ← s.threads[i]?
    let (gen, waiters, new) ← ownWait s.gen s.waiters pc act
    let threads := s.threads.set i new
    return ⟨gen, waiters, if pc = .wakes then threads.map WaitPc.woken else threads⟩

/-- The count is of the threads inside `own_wait`, and a sleeper whose generation has passed will be
woken. -/
structure Good (s : Landing) : Prop where
  counts : s.waiters = s.threads.countP WaitPc.inside
  awaited : ∀ gen, .sleeps gen ∈ s.threads →
    s.gen = gen ∨ .bumped ∈ s.threads ∨ .wakes ∈ s.threads

variable {s s' : Landing} {i : Nat} {pc new : WaitPc} {act : WaitAct} {gen : UInt32}
  {waiters : Nat}

/-- A sleeper is counted, so the thread that looks for one after its bump finds it. -/
theorem Good.sleeper (good : s.Good) (asleep : .sleeps gen ∈ s.threads) : s.waiters ≠ 0 := by
  have some : 0 < s.threads.countP WaitPc.inside := countP_pos_iff.mpr ⟨_, asleep, rfl⟩
  have all := good.counts
  omega

/-- A thread counts itself in and out. -/
theorem ownWait_counts (step : ownWait s.gen s.waiters pc act = some (gen, waiters, new))
    (counted : pc.inside → 0 < s.waiters) :
    waiters + (if pc.inside then 1 else 0) = s.waiters + if new.inside then 1 else 0 := by
  revert step counted
  fun_cases ownWait <;> grind [WaitPc.inside]

/-- A thread sleeps only on the current generation, which only a bump moves, and one that has bumped
it passes over the wake only when nobody is counted. -/
theorem ownWait_awaited (step : ownWait s.gen s.waiters pc act = some (gen, waiters, new))
    (other : pc ≠ .wakes) :
    new = .bumped ∨ new = .wakes ∨
      (gen = s.gen ∧ (∀ g, new = .sleeps g → gen = g) ∧ (pc = .bumped → s.waiters = 0)) := by
  revert step other
  fun_cases ownWait <;> grind

theorem woken_inside (pc : WaitPc) : pc.woken.inside = pc.inside := by cases pc <;> rfl

theorem woken_awake (pc : WaitPc) : pc.woken ≠ .sleeps gen := by cases pc <;> simp [WaitPc.woken]

theorem Good.next {act : Nat × WaitAct} (good : s.Good) (step : s.next act = some s') :
    s'.Good := by
  obtain ⟨pc, here, step⟩ := Option.bind_eq_some_iff.mp step
  obtain ⟨⟨gen, waiters, new⟩, access, ⟨⟩⟩ := Option.bind_eq_some_iff.mp step
  have counts : waiters = (s.threads.set act.1 new).countP WaitPc.inside := by
    have all := good.counts
    have inside := countP_set WaitPc.inside here new
    have same := ownWait_counts access fun counted =>
      all ▸ countP_pos_iff.mpr ⟨pc, mem_of_getElem? here, counted⟩
    omega
  split
  next wakes =>
    refine ⟨?_, fun g asleep => ?_⟩
    · rw [countP_map, funext woken_inside (f := WaitPc.inside ∘ WaitPc.woken)]
      exact counts
    · obtain ⟨pc, -, same⟩ := mem_map.mp asleep
      exact absurd same (woken_awake pc)
  next other =>
    refine ⟨counts, fun g asleep => ?_⟩
    have arrived := mem_set_self here new
    obtain rfl | rfl | ⟨rfl, current, looked⟩ := ownWait_awaited access other
    · exact .inr (.inl arrived)
    · exact .inr (.inr arrived)
    obtain before | rfl := mem_or_eq_of_mem_set asleep
    · have still : .bumped ≠ pc := fun bumped => good.sleeper before (looked bumped.symm)
      exact (good.awaited g before).imp_right <|
        .imp (mem_set_of_ne here · still) (mem_set_of_ne here · (Ne.symm other))
    · exact .inl (current g rfl)

/-- For any number of threads and in every order of their steps, even past a wrap of the generation,
`waiters` counts the threads inside `own_wait`, and no landing is lost: while a thread sleeps for a
generation that has passed, another is to wake all or to look at `waiters`, which is not zero. -/
theorem own_wait_no_lost_landing {n : Nat}
    (run : Reach (Computed Landing.next) ⟨gen, 0, List.replicate n .out⟩ s) :
    s.waiters = s.threads.countP WaitPc.inside ∧
      ∀ g, .sleeps g ∈ s.threads → s.gen ≠ g →
        .wakes ∈ s.threads ∨ (.bumped ∈ s.threads ∧ s.waiters ≠ 0) := by
  have start : Good ⟨gen, 0, List.replicate n .out⟩ := by
    constructor <;> simp [countP_replicate, WaitPc.inside]
  have good : s.Good := run.invariant (fun _ _ _ => Good.next) start
  refine ⟨good.counts, fun g asleep passed => ?_⟩
  obtain bumped | wakes := (good.awaited g asleep).resolve_left passed
  · exact .inr ⟨bumped, good.sleeper asleep⟩
  · exact .inl wakes

/-- A thread sleeps on a generation that a landing is about to pass. -/
theorem own_wait_landing_pending : ∃ s : Landing, .sleeps 7 ∈ s.threads ∧
    (.wakes ∈ s.threads ∨ (.bumped ∈ s.threads ∧ s.waiters ≠ 0)) := by
  have run := @exec_get_reach _ _ next ⟨7, 0, List.replicate 2 .out⟩
    [(0, .wait 7), (0, .goes), (0, .goes), (1, .land)] (by decide)
  exact ⟨_, by decide, (own_wait_no_lost_landing run).2 7 (by decide) (by decide)⟩

end Landing

end Vmctx.Ownership
