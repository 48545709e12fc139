import Vmctx.System.Run
/-!
# Pulls in flight

A thread that fetches a page's bytes from the source drops the coherence lock for the round trip,
and marks the page in a table of sixteen entries instead; who would answer for the page waits until
the mark is gone. The table is keyed by the page's address alone, and the end of a pull clears every
mark of the address. Two pulls of one address, by contexts of one address space or of two, are then
ended by the first of them.
-/

namespace Vmctx.Pulls

open Vmctx.System List

def pullMax : Nat := 16

def pageOf (addr : UInt64) : UInt64 := addr &&& ~~~0xfff

structure Pull where
  addr : UInt64
  active : Bool
  tid : Nat
  t0 : Nat
  deriving DecidableEq, Repr

def Pull.marks (page : UInt64) (p : Pull) : Bool := p.active && p.addr == page

/-- `pull_begin`, with the thread and the time: whether an entry was free, and the table. -/
def pullBegin (tab : List Pull) (addr : UInt64) (tid now : Nat) : Bool × List Pull :=
  match tab.findIdx? (! ·.active) with
  | some i => (true, tab.set i ⟨pageOf addr, true, tid, now⟩)
  | none => (false, tab)

/-- `pull_end`: every mark of the page goes. -/
def pullEnd (tab : List Pull) (addr : UInt64) : List Pull :=
  tab.map fun p => if p.marks (pageOf addr) then { p with active := false } else p

/-- `pull_active`. -/
def pullActive (tab : List Pull) (addr : UInt64) : Bool := tab.any (·.marks (pageOf addr))

/-! ## Threads -/

structure State where
  tab : List Pull
  flights : List (Nat × UInt64)
  waiters : List (Nat × UInt64)
  deriving DecidableEq, Repr

inductive Event
  | start (tid : Nat) (addr : UInt64) (now : Nat)
  | finish (tid : Nat) (addr : UInt64)
  | wait (tid : Nat) (addr : UInt64)
  | wake (tid : Nat) (page : UInt64)
  | giveUp (tid : Nat) (page : UInt64)
  deriving DecidableEq, Repr

namespace State

def new : State := ⟨List.replicate pullMax ⟨0, false, 0, 0⟩, [], []⟩

def InFlight (s : State) (page : UInt64) : Prop := ∃ tid, (tid, page) ∈ s.flights

/-- A pull begins or ends, or a thread is in `pull_wait`. -/
def next (s : State) : Event → Option State
  | .start tid addr now =>
    let (marked, tab) := pullBegin s.tab addr tid now
    some { s with tab, flights := if marked then (tid, pageOf addr) :: s.flights else s.flights }
  | .finish tid addr =>
    if (tid, pageOf addr) ∈ s.flights then
      some { s with
        tab := pullEnd s.tab addr, flights := s.flights.erase (tid, pageOf addr) }
    else none
  | .wait tid addr =>
    -- a thread whose page is not marked returns at once
    if pullActive s.tab addr then some { s with waiters := (tid, pageOf addr) :: s.waiters }
    else some s
  | .wake tid page =>
    if (tid, page) ∈ s.waiters then
      if s.tab.any (·.marks page) then some s
      else some { s with waiters := s.waiters.erase (tid, page) }
    else none
  | .giveUp tid page =>
    if (tid, page) ∈ s.waiters then some { s with waiters := s.waiters.erase (tid, page) }
    else none

def Alone (s : State) : Event → Prop
  | .finish tid addr => ∀ flight ∈ s.flights.erase (tid, pageOf addr), flight.2 ≠ pageOf addr
  | _ => True

instance (s : State) : (e : Event) → Decidable (s.Alone e)
  | .start .. | .wait .. | .wake .. | .giveUp .. => inferInstanceAs (Decidable True)
  | .finish tid addr => inferInstanceAs (Decidable
      (∀ flight ∈ s.flights.erase (tid, pageOf addr), flight.2 ≠ pageOf addr))

/-- The markers of the pulls tell what is in flight. -/
structure Marked (s : State) : Prop where
  /-- A pull in flight is found active. -/
  active : ∀ addr, s.InFlight (pageOf addr) → pullActive s.tab addr = true
  /-- Who waits for it is queued. -/
  waits : ∀ tid addr, s.InFlight (pageOf addr) →
    s.next (.wait tid addr) = some { s with waiters := (tid, pageOf addr) :: s.waiters }
  /-- And is not let go before it ends. -/
  stays : ∀ tid page, s.InFlight page → (tid, page) ∈ s.waiters →
    s.next (.wake tid page) = some s

end State

variable {tab : List Pull} {page addr : UInt64}

/-! ## One operation -/

theorem marks_iff {p : Pull} : p.marks page = true ↔ p.active = true ∧ p.addr = page := by
  simp [Pull.marks]

theorem pullBegin_marks {tid now : Nat} {after : List Pull}
    (marked : pullBegin tab addr tid now = (true, after)) :
    after.any (·.marks (pageOf addr)) = true ∧
      ∀ page, tab.any (·.marks page) = true → after.any (·.marks page) = true := by
  simp only [pullBegin] at marked
  split at marked
  · next i free =>
    cases marked
    obtain ⟨inside, unused, -⟩ := List.findIdx?_eq_some_iff_getElem.mp free
    constructor
    · refine any_eq_true.mpr ⟨⟨pageOf addr, true, tid, now⟩, ?_, marks_iff.mpr ⟨rfl, rfl⟩⟩
      exact mem_iff_getElem?.mpr ⟨i, List.getElem?_set_self inside⟩
    · intro page marked
      obtain ⟨p, member, marks⟩ := any_eq_true.mp marked
      obtain ⟨k, found⟩ := mem_iff_getElem?.mp member
      -- a used entry is not the one that was free
      have other : i ≠ k := by
        rintro rfl
        rw [List.getElem?_eq_getElem inside] at found
        cases found
        rw [(marks_iff.mp marks).1] at unused
        cases unused
      refine any_eq_true.mpr ⟨p, mem_iff_getElem?.mpr ⟨k, ?_⟩, marks⟩
      rw [List.getElem?_set_ne other, found]
  · cases marked

theorem pullEnd_marks (other : page ≠ pageOf addr) (marked : tab.any (·.marks page) = true) :
    (pullEnd tab addr).any (·.marks page) = true := by
  obtain ⟨p, member, marks⟩ := any_eq_true.mp marked
  refine any_eq_true.mpr ⟨p, mem_map.mpr ⟨p, member, if_neg fun same => ?_⟩, marks⟩
  exact other ((marks_iff.mp marks).2.symm.trans (marks_iff.mp same).2)

/-! ## Every interleaving -/

def State.Good (s : State) : Prop := ∀ page, s.InFlight page → s.tab.any (·.marks page) = true

theorem State.Good.step {s s' : State} {e : Event} (good : s.Good) (alone : s.Alone e)
    (step : s.next e = some s') : s'.Good := by
  cases e with
  | start tid addr now =>
    simp only [next, Option.some.injEq] at step
    subst step
    intro page ⟨thread, member⟩
    rcases result : pullBegin s.tab addr tid now with ⟨marked, after⟩
    simp only [result] at member ⊢
    cases marked with
    | true =>
      obtain ⟨here, kept⟩ := pullBegin_marks result
      obtain new | old := mem_cons.mp member
      · cases new
        exact here
      · exact kept page (good page ⟨thread, old⟩)
    | false =>
      have same : after = s.tab := by
        simp only [pullBegin] at result
        split at result <;> cases result
        rfl
      rw [same]
      exact good page ⟨thread, member⟩
  | finish tid addr =>
    obtain ⟨-, same⟩ := Option.ite_none_right_eq_some.mp step
    cases same
    intro page ⟨thread, member⟩
    exact pullEnd_marks (alone _ member) (good page ⟨thread, mem_of_mem_erase member⟩)
  | wait tid addr =>
    simp only [next] at step
    split at step <;> cases step <;> exact good
  | wake tid page =>
    obtain ⟨-, same⟩ := Option.ite_none_right_eq_some.mp step
    split at same <;> cases same <;> exact good
  | giveUp tid page =>
    obtain ⟨-, same⟩ := Option.ite_none_right_eq_some.mp step
    cases same
    exact good

/-- As long as a pull is ended only while no other pull of its page is in flight, the marks are
right. -/
theorem pull_markers {s : State} (run : Reach (Guarded State.Alone (Computed State.next)) .new s) :
    s.Marked := by
  have good : s.Good := Reach.invariant
    (fun before label after good step => State.Good.step good step.1 step.2)
    (fun page ⟨thread, member⟩ => absurd member not_mem_nil) run
  refine ⟨fun addr flying => good _ flying, fun tid addr flying => ?_, ?_⟩
  · exact if_pos (good _ flying)
  · intro tid page flying waits
    exact (if_pos waits).trans (if_pos (good _ flying))

def twoPages : List Event :=
  [.start 1 0x7000 0, .start 2 0x8123 1, .wait 3 0x8000, .finish 1 0x7000]

/-- Pulls of two pages, one of which has ended. -/
theorem pull_markers_pages : ∃ s : State, s.Marked ∧ s.InFlight 0x8000 ∧
    pullActive s.tab 0x8000 = true := by
  have ran : (exec (fun s e => if decide (State.Alone s e) then s.next e else none)
      State.new twoPages).any (fun s => decide ((2, 0x8000) ∈ s.flights ∧
        pullActive s.tab 0x8000 = true)) = true := by
    decide
  obtain ⟨s, run, shape⟩ := exec_exhibits_guarded ran
  obtain ⟨flying, active⟩ := of_decide_eq_true shape
  refine ⟨s, pull_markers (run.mono fun _ _ _ step => ⟨?_, step.2⟩), ⟨2, flying⟩, active⟩
  exact of_decide_eq_true step.1

/-! ## One address, two pulls -/

/-- Two contexts pull the same address, a third thread waits, and the first pull ends. -/
def overlap : List Event :=
  [.start 1 0x7000 0, .start 2 0x7000 1, .wait 3 0x7000, .finish 1 0x7000]

/-- The second pull is in flight and not marked, and the thread that waits for the page does not go
on waiting. -/
theorem overlapping_pull_hidden : ∃ s : State,
    Reach (Computed State.next) .new s ∧ s.InFlight 0x7000 ∧
      pullActive s.tab 0x7000 = false ∧ (3, 0x7000) ∈ s.waiters ∧
      (s.next (.wake 3 0x7000)).any (fun s' => ¬(3, 0x7000) ∈ s'.waiters) = true := by
  have ran : (exec State.next State.new overlap).any (fun s => decide
      ((2, 0x7000) ∈ s.flights ∧ pullActive s.tab 0x7000 = false ∧ (3, 0x7000) ∈ s.waiters ∧
        (s.next (.wake 3 0x7000)).any (fun s' => ¬(3, 0x7000) ∈ s'.waiters) = true)) = true := by
    decide
  obtain ⟨s, run, shape⟩ := exec_exhibits ran
  obtain ⟨flying, rest⟩ := of_decide_eq_true shape
  exact ⟨s, run, ⟨2, flying⟩, rest⟩

end Vmctx.Pulls
