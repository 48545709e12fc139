import Mathlib.Logic.Basic
import Vmctx.Execution.Mm
/-!
# Callers of the MM registry

Every interleaving of callers keeps one record for an identity, under the ancestor it was first
published with, and loses no object: an object is held by the call that made it until it is the
object of a record or closed.
-/

namespace Vmctx.Execution

open Vmctx.System List

variable {r r' : MmRegistry} {s s' : MmState} {call : Resolve} {identity parentIdentity : UInt64}
  {mm : Mm} {p i : Nat}

/-! ## What a step does -/

inductive Moved (s : MmState) (i : Nat) (call : Resolve) : MmState → Prop
  | refused {errno : Errno} (here : call.phase = .entering)
      (looked : s.registry.look call.identity call.parentIdentity = .error errno) :
      Moved s i call (s.goto i call (.returned (.error errno)))
  | found {parent : Option Nat} {mm : Nat} (here : call.phase = .entering)
      (looked : s.registry.look call.identity call.parentIdentity = .ok (parent, some mm)) :
      Moved s i call (s.goto i call (.returned (.ok mm)))
  | absent {parent : Option Nat} (here : call.phase = .entering)
      (looked : s.registry.look call.identity call.parentIdentity = .ok (parent, none)) :
      Moved s i call (s.goto i call (.making parent))
  | failed {parent : Option Nat} (errno : Errno) (here : call.phase = .making parent) :
      Moved s i call (s.goto i call (.returned (.error errno)))
  | made {parent : Option Nat} (here : call.phase = .making parent) :
      Moved s i call { s.goto i call (.publishing parent s.made) with made := s.made + 1 }
  | beaten {parent : Option Nat} {object mm : Nat} (here : call.phase = .publishing parent object)
      (found : s.registry.find call.identity = some mm) (same : s.registry.parent mm = parent) :
      Moved s i call (s.goto i call (.closing object (.ok mm)))
  | rejected {parent : Option Nat} {object : Nat} (errno : Errno)
      (here : call.phase = .publishing parent object) :
      Moved s i call (s.goto i call (.closing object (.error errno)))
  | published {parent : Option Nat} {object : Nat} (here : call.phase = .publishing parent object)
      (free : s.registry.find call.identity = none) :
      Moved s i call
        { s.goto i call (.returned (.ok s.registry.heap.length)) with
          registry := s.registry.publish ⟨call.identity, parent, object⟩ }
  | closed {object : Nat} {result : Except Errno Nat} (here : call.phase = .closing object result) :
      Moved s i call { s.goto i call (.returned result) with closed := object :: s.closed }

variable {e : MmEvent} {parent : Option Nat}

theorem MmState.callNext_moved (step : s.callNext i call e = some s') : Moved s i call s' := by
  cases e with
  | find | resolve => cases step
  | look =>
    simp only [callNext] at step
    split at step
    · next here =>
      split at step
      · next looked => cases step; exact .refused here looked
      · next looked => cases step; exact .found here looked
      · next looked => cases step; exact .absent here looked
    · cases step
  | noMemory | makeFails =>
    simp only [callNext] at step
    split at step
    · next here => cases step; exact .failed _ here
    · cases step
  | makes =>
    simp only [callNext] at step
    split at step
    · next here => cases step; exact .made here
    · cases step
  | publish =>
    simp only [callNext] at step
    split at step
    · next here =>
      cases step
      simp only [publish]
      split
      · next found =>
        split
        · exact .rejected _ here
        · next same => exact .beaten here found (not_not.mp same)
      · next free =>
        split
        · exact .rejected _ here
        · exact .published here free
    · cases step
  | closes =>
    simp only [callNext] at step
    split at step
    · next here => cases step; exact .closed here
    · cases step

theorem MmState.next_cases (step : s.next e = some s') :
    (∃ identity result, s' = { s with finds := (identity, result) :: s.finds } ∧
      ∀ p, result = .ok p → s.registry.find identity = some p) ∨
    (∃ identity parentIdentity phase,
      s' = { s with calls := s.calls ++ [⟨identity, parentIdentity, phase⟩] } ∧
      (phase = .returned (.error .EINVAL) ∨
        phase = .entering ∧ identity ≠ 0 ∧ identity ≠ parentIdentity)) ∨
    ∃ i call, s.calls[i]? = some call ∧ Moved s i call s' := by
  cases e with
  | find identity =>
    cases step
    refine .inl ⟨identity, _, rfl, fun p ok => ?_⟩
    split at ok
    · cases ok
    · next found =>
      cases ok
      exact found
  | resolve identity parentIdentity =>
    cases step
    refine .inr (.inl ⟨identity, parentIdentity, _, rfl, ?_⟩)
    split
    · exact .inl rfl
    · next legal => exact .inr ⟨rfl, not_or.mp legal⟩
  | look i | noMemory i | makeFails i | makes i | publish i | closes i =>
    obtain ⟨call, placed, moved⟩ := Option.bind_eq_some_iff.mp step
    exact .inr (.inr ⟨i, call, placed, callNext_moved moved⟩)

/-! ## The calls -/

def Extends (r r' : MmRegistry) : Prop :=
  ∀ (p : Nat) mm, r.heap[p]? = some mm → r'.heap[p]? = some mm

theorem MmRegistry.Has.mono (has : r.Has p identity) (grows : Extends r r') : r'.Has p identity :=
  has.imp fun mm here => ⟨grows p mm here.1, here.2⟩

theorem MmRegistry.Names.mono (names : r.Names parent parentIdentity) (grows : Extends r r') :
    r'.Names parent parentIdentity := by
  cases parent with
  | none => exact names
  | some q => exact ⟨names.1, names.2.mono grows⟩

/-- A result is the record that was named, under the ancestor that was named. -/
def Result.Right (r : MmRegistry) (call : Resolve) (result : Except Errno Nat) : Prop :=
  ∀ p, result = .ok p →
    ∃ mm, r.heap[p]? = some mm ∧ mm.identity = call.identity ∧ r.Names mm.parent call.parentIdentity

def Resolve.Right (r : MmRegistry) (call : Resolve) : Prop :=
  match call.phase with
  | .entering => call.identity ≠ call.parentIdentity
  | .making parent | .publishing parent _ =>
    call.identity ≠ call.parentIdentity ∧ r.Names parent call.parentIdentity
  | .closing _ result | .returned result => Result.Right r call result

theorem Result.Right.mono {result : Except Errno Nat} (right : Result.Right r call result)
    (grows : Extends r r') : Result.Right r' call result := by
  intro p ok
  obtain ⟨mm, placed, same, names⟩ := right p ok
  exact ⟨mm, grows p mm placed, same, names.mono grows⟩

theorem Resolve.Right.mono (right : call.Right r) (grows : Extends r r') : call.Right r' := by
  simp only [Resolve.Right] at right ⊢
  split
  · next here => rw [here] at right; exact right
  · next here => rw [here] at right; exact ⟨right.1, right.2.mono grows⟩
  · next here => rw [here] at right; exact ⟨right.1, right.2.mono grows⟩
  · next here => rw [here] at right; exact right.mono grows
  · next here => rw [here] at right; exact right.mono grows

theorem MmRegistry.Good.look_spec {mm : Option Nat} (good : r.Good)
    (looked : r.look identity parentIdentity = .ok (parent, mm)) :
    r.Names parent parentIdentity ∧ ∀ p, mm = some p → r.Has p identity ∧ r.parent p = parent := by
  simp only [look] at looked
  split at looked
  · cases looked
  · next known =>
    split at looked
    · cases looked
    · next agrees =>
      cases looked
      constructor
      · by_cases root : parentIdentity = 0
        · rw [ancestor, if_pos root]
          exact root
        · rw [ancestor, if_neg root] at known ⊢
          cases found : r.find parentIdentity with
          | none => exact absurd ⟨root, found⟩ known
          | some q => exact ⟨root, good.find_iff.mp found⟩
      · intro p found
        rw [found, Option.any_some] at agrees
        exact ⟨good.find_iff.mp found, by simpa using agrees⟩

theorem Result.right_of (has : r.Has p call.identity) (same : r.parent p = parent)
    (names : r.Names parent call.parentIdentity) : Result.Right r call (.ok p) := by
  rintro q ok
  cases ok
  obtain ⟨mm, placed, named⟩ := has
  refine ⟨mm, placed, named, ?_⟩
  rw [MmRegistry.parent, placed] at same
  rwa [show mm.parent = parent from same]

structure MmState.Good (s : MmState) : Prop where
  registry : s.registry.Good
  calls : ∀ call ∈ s.calls, call.Right s.registry
  finds : ∀ identity p, (identity, .ok p) ∈ s.finds → s.registry.Has p identity

theorem MmState.next_extends (step : s.next e = some s') : Extends s.registry s'.registry := by
  obtain ⟨identity, result, rfl, -⟩ | ⟨identity, parentIdentity, phase, rfl, -⟩ |
    ⟨i, call, -, moved⟩ := next_cases step
  · exact fun _ _ placed => placed
  · exact fun _ _ placed => placed
  · cases moved with
    | published => exact fun _ _ placed => MmRegistry.publish_kept placed
    | refused | found | absent | failed | made | beaten | rejected | closed =>
      exact fun _ _ placed => placed

theorem Moved.right (good : s.Good) (right : call.Right s.registry) (moved : Moved s i call s') :
    s'.registry.Good ∧ ∃ phase, s'.calls = s.calls.set i { call with phase } ∧
      Resolve.Right s'.registry { call with phase } := by
  have nothing {r : MmRegistry} {errno : Errno} : Result.Right r call (.error errno) := nofun
  cases moved with
  | refused | failed | rejected => exact ⟨good.registry, _, rfl, nothing⟩
  | found here looked =>
    obtain ⟨names, record⟩ := good.registry.look_spec looked
    obtain ⟨has, same⟩ := record _ rfl
    exact ⟨good.registry, _, rfl, Result.right_of has same names⟩
  | absent here looked =>
    rw [Resolve.Right, here] at right
    exact ⟨good.registry, _, rfl, right, (good.registry.look_spec looked).1⟩
  | made here | closed here =>
    rw [Resolve.Right, here] at right
    exact ⟨good.registry, _, rfl, right⟩
  | beaten here found same =>
    rw [Resolve.Right, here] at right
    exact ⟨good.registry, _, rfl,
      Result.right_of (good.registry.find_iff.mp found) same right.2⟩
  | @published parent object here free =>
    rw [Resolve.Right, here] at right
    have kept : Extends s.registry (s.registry.publish ⟨call.identity, parent, object⟩) :=
      fun _ _ placed => MmRegistry.publish_kept placed
    refine ⟨good.registry.publish free ?_, _, rfl, ?_⟩
    · intro q ancestor
      have ancestor : parent = some q := ancestor
      rw [ancestor] at right
      obtain ⟨mm, placed, -⟩ := right.2.2
      exact (List.getElem?_eq_some_iff.mp placed).1
    · intro p ok
      cases ok
      exact ⟨_, List.getElem?_concat_length, rfl, right.2.mono kept⟩

theorem MmState.Good.step (good : s.Good) (step : s.next e = some s') : s'.Good := by
  have grows := next_extends step
  obtain ⟨identity, result, rfl, found⟩ | ⟨identity, parentIdentity, phase, rfl, fresh⟩ |
    ⟨i, call, placed, moved⟩ := next_cases step
  · refine ⟨good.registry, good.calls, fun named p member => ?_⟩
    obtain new | old := mem_cons.mp member
    · cases new
      exact good.registry.find_iff.mp (found p rfl)
    · exact good.finds named p old
  · refine ⟨good.registry, fun call member => ?_, good.finds⟩
    obtain old | new := mem_append.mp member
    · exact good.calls call old
    · cases mem_singleton.mp new
      obtain rfl | ⟨rfl, -, different⟩ := fresh
      · exact nofun
      · exact different
  · obtain ⟨registry, phase, calls, right⟩ :=
      moved.right good (good.calls call (mem_of_getElem? placed))
    have finds : s'.finds = s.finds := by cases moved <;> rfl
    refine ⟨registry, fun other member => ?_, fun named p member => ?_⟩
    · rw [calls] at member
      obtain old | rfl := mem_or_eq_of_mem_set member
      · exact (good.calls other old).mono grows
      · exact right
    · rw [finds] at member
      exact (good.finds named p member).mono grows

/-! ## The objects -/

def Resolve.holds (object : Nat) (call : Resolve) : Bool :=
  match call.phase with
  | .publishing _ held | .closing held _ => held = object
  | _ => false

namespace MmState

def owners (s : MmState) (object : Nat) : Nat := s.registry.heap.countP (·.backing = object)

def holders (s : MmState) (object : Nat) : Nat := s.calls.countP (·.holds object)

def closes (s : MmState) (object : Nat) : Nat := s.closed.count object

def Kept (s : MmState) : Prop :=
  ∀ object, s.owners object + s.holders object + s.closes object = if object < s.made then 1 else 0

end MmState

theorem countP_moved {calls : List Resolve} {q : Resolve → Bool} (new : Resolve)
    (placed : calls[i]? = some call) :
    (calls.set i new).countP q + (if q call then 1 else 0) =
      calls.countP q + if q new then 1 else 0 := by
  induction calls generalizing i with
  | nil => cases placed
  | cons first rest ih =>
    cases i with
    | zero =>
      cases placed
      rw [set_cons_zero, countP_cons, countP_cons]
      omega
    | succ i =>
      have moved := ih placed
      rw [set_cons_succ, countP_cons, countP_cons]
      omega

theorem MmState.Kept.moved {phase : ResolvePhase} (kept : s.Kept) (placed : s.calls[i]? = some call)
    (calls : s'.calls = s.calls.set i { call with phase }) (made : s'.made = s.made)
    (balance : ∀ object,
      s'.owners object + (if Resolve.holds object { call with phase } then 1 else 0) +
          s'.closes object =
        s.owners object + (if call.holds object then 1 else 0) + s.closes object) : s'.Kept := by
  intro object
  have before := kept object
  have count := @countP_moved call i s.calls (·.holds object) { call with phase } placed
  have balance := balance object
  rw [← calls] at count
  rw [made]
  simp only [holders] at before ⊢
  omega

theorem Moved.kept (kept : s.Kept) (placed : s.calls[i]? = some call) (moved : Moved s i call s') :
    s'.Kept := by
  cases moved with
  | refused here | found here | absent here | failed _ here | beaten here | rejected _ here =>
    refine kept.moved placed rfl rfl fun object => ?_
    simp only [Resolve.holds, here]
    rfl
  | @made parent here =>
    intro object
    have before := kept object
    have count := @countP_moved call i s.calls (·.holds object)
      { call with phase := .publishing parent s.made } placed
    simp only [Resolve.holds, here, decide_eq_true_eq, Bool.false_eq_true, if_false] at count
    show s.owners object + (s.calls.set i { call with phase := .publishing parent s.made }).countP
      (·.holds object) + s.closes object = if object < s.made + 1 then 1 else 0
    simp only [MmState.holders, Resolve.holds] at before ⊢
    split at count <;> split at before <;> split <;> omega
  | @published parent held here free =>
    refine kept.moved placed rfl rfl fun object => ?_
    have owned : (s.registry.heap ++ [Mm.mk call.identity parent held]).countP
        (fun mm => decide (mm.backing = object)) =
        s.owners object + if held = object then 1 else 0 := by
      rw [countP_append, countP_singleton]
      simp only [decide_eq_true_eq]
      rfl
    simp only [Resolve.holds, here, decide_eq_true_eq, Bool.false_eq_true, if_false]
    exact congrArg (· + s.closes object) owned
  | @closed held result here =>
    refine kept.moved placed rfl rfl fun object => ?_
    have counted : (held :: s.closed).count object =
        s.closes object + if held = object then 1 else 0 := by
      rw [count_cons]
      simp only [beq_iff_eq]
      rfl
    simp only [Resolve.holds, here, decide_eq_true_eq, Bool.false_eq_true, if_false]
    show s.owners object + 0 + (held :: s.closed).count object = _
    omega

theorem MmState.Kept.step (kept : s.Kept) (step : s.next e = some s') : s'.Kept := by
  obtain ⟨identity, result, rfl, -⟩ | ⟨identity, parentIdentity, phase, rfl, fresh⟩ |
    ⟨i, call, placed, moved⟩ := next_cases step
  · exact kept
  · intro object
    have free : Resolve.holds object ⟨identity, parentIdentity, phase⟩ = false := by
      obtain rfl | ⟨rfl, -⟩ := fresh <;> rfl
    have same : (s.calls ++ [Resolve.mk identity parentIdentity phase]).countP
        (Resolve.holds object) = s.holders object := by
      rw [countP_append, countP_singleton, free]
      rfl
    exact (congrArg (s.owners object + · + s.closes object) same).trans (kept object)
  · exact moved.kept kept placed

/-! ## The contract -/

def MmRegistry.generation (r : MmRegistry) (p : Nat) : Nat → Option Nat
  | 0 => some p
  | n + 1 => (r.generation p n).bind r.parent

/-- What the registry of address spaces owes its callers. -/
structure MmState.Sound (s : MmState) : Prop where
  /-- An identity has one record. -/
  unique : ∀ p q identity, s.registry.Has p identity → s.registry.Has q identity → p = q
  /-- `find` returns it. -/
  find : ∀ p identity, s.registry.find identity = some p ↔ s.registry.Has p identity
  /-- A resolve that has succeeded returned it, and named its ancestor. -/
  resolved : ∀ call ∈ s.calls, ∀ p, call.phase = .returned (.ok p) →
    ∃ mm, s.registry.heap[p]? = some mm ∧ mm.identity = call.identity ∧
      s.registry.Names mm.parent call.parentIdentity
  /-- What a lookup returned has the identity it asked for. -/
  found : ∀ identity p, (identity, .ok p) ∈ s.finds → s.registry.Has p identity
  /-- Records are never changed or removed. -/
  stable : ∀ last, Reach (Computed MmState.next) s last →
    ∀ (p : Nat) mm, s.registry.heap[p]? = some mm → last.registry.heap[p]? = some mm
  /-- The ancestor of a record is one of another identity. -/
  ancestor : ∀ (p : Nat) mm q, s.registry.heap[p]? = some mm → mm.parent = some q →
    ∃ mn, s.registry.heap[q]? = some mn ∧ mn.identity ≠ mm.identity
  /-- A line of ancestors ends. -/
  finite : ∀ p, ∃ n, s.registry.generation p n = none
  /-- No record is its own ancestor. -/
  acyclic : ∀ p n, s.registry.generation p (n + 1) ≠ some p
  /-- The count is that of the records. -/
  count : s.registry.count = s.registry.heap.length
  /-- A resolve that names an unknown ancestor fails, and changes no record. -/
  unknown : ∀ (i : Nat) call after, s.calls[i]? = some call → call.phase = .entering →
    call.parentIdentity ≠ 0 → s.registry.find call.parentIdentity = none →
    s.next (.look i) = some after →
    after = s.goto i call (.returned (.error .ENOENT))
  /-- A resolve that names another ancestor than the record's fails. -/
  contradicts : ∀ (i : Nat) call mm after, s.calls[i]? = some call → call.phase = .entering →
    s.registry.ancestor call.parentIdentity ≠ none ∨ call.parentIdentity = 0 →
    s.registry.find call.identity = some mm →
    s.registry.parent mm ≠ s.registry.ancestor call.parentIdentity →
    s.next (.look i) = some after →
    after = s.goto i call (.returned (.error .EPROTO))
  /-- The registry is changed only by a resolve that succeeds, and gets one record more. -/
  changes : ∀ e after, s.next e = some after → after.registry = s.registry ∨
    ∃ (i : Nat) (call : Resolve) (parent : Option Nat) (object : Nat),
      s.calls[i]? = some call ∧ call.phase = .publishing parent object ∧
      s.registry.find call.identity = none ∧
      after.registry = s.registry.publish ⟨call.identity, parent, object⟩ ∧
      after.calls[i]? = some { call with phase := .returned (.ok s.registry.heap.length) }
  /-- An object that was made is owned by one record, held by one call, or was closed once. -/
  objects : ∀ object, s.owners object + s.holders object + s.closes object =
    if object < s.made then 1 else 0
  /-- Once the calls have returned, it is owned by one record or was closed once. -/
  settled : (∀ call ∈ s.calls, ∃ result, call.phase = .returned result) → ∀ object < s.made,
    s.owners object = 1 ∧ s.closes object = 0 ∨ s.owners object = 0 ∧ s.closes object = 1

theorem MmRegistry.Good.generation_le (good : r.Good) {q n : Nat}
    (above : r.generation p n = some q) : q + n ≤ p := by
  induction n generalizing q with
  | zero =>
    cases above
    exact Nat.le_refl _
  | succ n ih =>
    obtain ⟨child, below, ancestor⟩ := Option.bind_eq_some_iff.mp above
    obtain ⟨mm, placed, same⟩ := Option.bind_eq_some_iff.mp ancestor
    have earlier := good.earlier child mm q placed same
    have bound := ih below
    omega

theorem MmState.Good.sound (good : s.Good) (kept : s.Kept) : s.Sound := by
  refine ⟨good.registry.unique, fun p identity => good.registry.find_iff, ?_, good.finds, ?_, ?_,
    ?_, ?_, good.registry.count, ?_, ?_, ?_, kept, ?_⟩
  · intro call member p returned
    have right := good.calls call member
    rw [Resolve.Right, returned] at right
    exact right p rfl
  · intro last run
    have keeps : ∀ (before : MmState) (e : MmEvent) (after : MmState),
        Extends s.registry before.registry → Computed MmState.next before e after →
        Extends s.registry after.registry := by
      intro before e after kept step p mm placed
      exact next_extends step p mm (kept p mm placed)
    have base : Extends s.registry s.registry := fun _ _ placed => placed
    have grown := Reach.invariant keeps base run
    exact grown
  · intro p mm q placed ancestor
    have earlier := good.registry.earlier p mm q placed ancestor
    have inside : q < s.registry.heap.length :=
      Nat.lt_trans earlier (List.getElem?_eq_some_iff.mp placed).1
    have there := List.getElem?_eq_getElem inside
    refine ⟨_, there, fun same => ?_⟩
    have one := good.registry.unique q p mm.identity ⟨_, there, same⟩ ⟨mm, placed, rfl⟩
    omega
  · intro p
    refine ⟨p + 1, ?_⟩
    cases above : s.registry.generation p (p + 1) with
    | none => rfl
    | some q =>
      have bound := good.registry.generation_le above
      omega
  · intro p n cycle
    have bound := good.registry.generation_le cycle
    omega
  · intro i call after placed here ancestor absent step
    have looked : s.registry.look call.identity call.parentIdentity = .error .ENOENT := by
      rw [MmRegistry.look, MmRegistry.ancestor, if_neg ancestor, if_pos ⟨ancestor, absent⟩]
    obtain ⟨same, found, moved⟩ := Option.bind_eq_some_iff.mp step
    cases placed.symm.trans found
    simp only [callNext, here, looked, Option.some.injEq] at moved
    exact moved.symm
  · intro i call mm after placed here known found differs step
    have looked : s.registry.look call.identity call.parentIdentity = .error .EPROTO := by
      rw [MmRegistry.look, if_neg, found, Option.any_some, if_pos (decide_eq_true differs)]
      rintro ⟨ancestor, absent⟩
      exact known.elim (fun some => some absent) ancestor
    obtain ⟨same, found, moved⟩ := Option.bind_eq_some_iff.mp step
    cases placed.symm.trans found
    simp only [callNext, here, looked, Option.some.injEq] at moved
    exact moved.symm
  · intro e after step
    obtain ⟨identity, result, rfl, -⟩ | ⟨identity, parentIdentity, phase, rfl, -⟩ |
      ⟨i, call, placed, moved⟩ := next_cases step
    · exact .inl rfl
    · exact .inl rfl
    · cases moved with
      | @published parent object here free =>
        refine .inr ⟨i, call, parent, object, placed, here, free, rfl, ?_⟩
        exact List.getElem?_set_self (List.getElem?_eq_some_iff.mp placed).1
      | refused | found | absent | failed | made | beaten | rejected | closed => exact .inl rfl
  · intro returned object made
    have idle : s.holders object = 0 := by
      refine countP_eq_zero.mpr fun call member => ?_
      obtain ⟨result, here⟩ := returned call member
      rw [Resolve.holds, here]
      exact Bool.false_ne_true
    have place := kept object
    rw [if_pos made] at place
    omega

/-- However the callers of `resolve` interleave, an identity has one object, and all of them get it.
-/
theorem mm_registry_sound {s : MmState} (run : Reach (Computed MmState.next) .new s) : s.Sound := by
  have good : s.Good := Reach.invariant (fun _ _ _ good step => good.step step)
    ⟨.new, fun _ here => absurd here not_mem_nil, fun _ _ here => absurd here not_mem_nil⟩
    run
  have kept : s.Kept := Reach.invariant (fun _ _ _ kept step => kept.step step)
    (fun _ => rfl) run
  exact good.sound kept

/-- A root is resolved; then two callers race for one descendant, and a third names another ancestor
for it. -/
def race : List MmEvent :=
  [.resolve 5 0, .look 0, .makes 0, .publish 0, .resolve 7 5, .resolve 7 5, .resolve 7 0, .look 1,
    .look 2, .look 3, .makes 3, .makes 1, .makes 2, .publish 2, .publish 1, .publish 3, .closes 1,
    .closes 3]

/-- Three callers race for one identity; the objects of the two that lose are closed. -/
theorem mm_registry_sound_race : ∃ s : MmState, s.Sound ∧
    s.registry.heap = [⟨5, none, 0⟩, ⟨7, some 0, 3⟩] ∧ s.closed = [1, 2] := by
  have ran : (exec MmState.next MmState.new race).any (fun s => decide
      (s.registry.heap = [⟨5, none, 0⟩, ⟨7, some 0, 3⟩] ∧ s.closed = [1, 2])) = true := by
    decide
  obtain ⟨s, run, shape⟩ := exec_exhibits ran
  exact ⟨s, mm_registry_sound run, of_decide_eq_true shape⟩

end Vmctx.Execution
