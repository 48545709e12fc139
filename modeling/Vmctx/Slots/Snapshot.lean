import Vmctx.Slots.Leases
/-!
# The executor's snapshots

`snapshot_begin` takes the serial mutex of an address space, enumerates its members and takes a
lease for each; `snapshot_end` releases what was taken. A world is one thread with one
`struct snapshot_lease`, the kernel's table and the mutex; all other threads take whatever steps
they like, in the kernel and on the mutex. The registry of the mutexes, the enumeration and
`ctx_execution_ended` answer as the step says.
-/

namespace Vmctx.Slots

open List

/-- An entry of `gates` in `struct snapshot_lease`: the lease on a member. -/
structure Gate where
  token : Nat
  member : Nat
  deriving DecidableEq, Repr

/-- Where `snapshot_begin` and `snapshot_end` are. -/
inductive Stage
  | idle
  | waits
  | loops (rest : List Nat)
  | begins (member : Nat) (rest : List Nat) (token : Nat)
  | refused (member : Nat) (rest : List Nat)
  | undoes
  | returned
  | failed
  | ends
  | ended
  | aborted
  deriving DecidableEq, Repr

/-- The members that are still to be taken up, until `snapshot_begin` gives up or its lease is
ended. -/
def Stage.rest : Stage → Option (List Nat)
  | .loops rest => some rest
  | .begins member rest _ => some (member :: rest)
  | .refused member rest => some (member :: rest)
  | .returned => some []
  | _ => none

def Stage.token : Stage → List Nat
  | .begins _ _ token => [token]
  | _ => []

def Stage.closed : Stage → Bool
  | .idle | .waits | .failed | .ended => true
  | _ => false

/-- A thread with its `struct snapshot_lease`, the kernel's table and the mutex of the
`struct snapshot_serial`. -/
structure World where
  table : Table
  mutex : Option Nat
  id : Nat
  pid : Nat
  stage : Stage
  serial : Bool
  gates : List Gate
  members : List Nat
  gone : List Nat
  deriving DecidableEq, Repr

inductive Move
  | kernel (act : Act)
  | locks (thread : Nat)
  | unlocks
  | start (pid : Nat) (found : Bool)
  | lock (members : List Nat)
  | skip
  | begin (mm : Mm)
  | refuse
  | observe (i : Nat)
  | succeed (i : Nat)
  | fail (i : Nat)
  | wait
  | giveUp
  | done
  | close
  | pop
  | release
  deriving DecidableEq, Repr

namespace World

def new (id : Nat) : World := ⟨.new, none, id, 0, .idle, false, [], [], []⟩

def foreign (w : World) : Act → Bool
  | .begin owner _ _ => owner ≠ w.id
  | .finish _ owner => owner ≠ w.id
  | .exit owner => owner ≠ w.id
  | .observe i => w.table.waiting[i]?.map (·.owner) ≠ some w.id
  | .succeed i => w.table.waiting[i]?.map (·.owner) ≠ some w.id
  | .fail i => w.table.waiting[i]?.map (·.owner) ≠ some w.id
  | _ => true

def mine (w : World) (i : Nat) : Bool := w.table.waiting[i]?.map (·.owner) = some w.id

def pop (w : World) : Option World :=
  match w.gates with
  | [] => none
  | gate :: gates =>
    match w.table.finish gate.token w.id with
    | some table => some { w with table, gates }
    | none => some { w with stage := .aborted }

def unlock (w : World) : World :=
  if w.serial then { w with mutex := none, serial := false } else w

/-- A step of the snapshot, of its members, or of the kernel for others. -/
def next (w : World) : Move → Option World
  | .kernel act =>
    if w.foreign act then (w.table.next act).map fun table => { w with table } else none
  | .locks thread =>
    if thread = w.id ∨ w.mutex.isSome then none else some { w with mutex := some thread }
  | .unlocks =>
    match w.mutex with
    | some thread => if thread = w.id then none else some { w with mutex := none }
    | none => none
  | .start pid found =>
    match w.stage with
    | .idle | .failed | .ended =>
      some { w with
        pid
        stage := if found then .waits else .failed
        serial := false
        gates := []
        members := []
        gone := [] }
    | _ => none
  | .lock members =>
    match w.stage, w.mutex with
    | .waits, none =>
      some { w with
        mutex := some w.id
        serial := true
        stage := .loops members
        members
        gone := [] }
    | _, _ => none
  | .skip =>
    match w.stage with
    | .loops (member :: rest) =>
      if member = w.pid then none
      else some { w with stage := .loops rest, gone := member :: w.gone }
    | _ => none
  | .begin mm =>
    match w.stage with
    | .loops (member :: rest) => (w.table.begin w.id mm 0).map fun table =>
      { w with table, stage := .begins member rest table.quiesceNext }
    | _ => none
  | .refuse =>
    match w.stage with
    | .loops (member :: rest) => some { w with stage := .refused member rest }
    | _ => none
  | .observe i => if w.mine i then (w.table.observe i).map fun table => { w with table } else none
  | .succeed i =>
    match w.stage with
    | .begins member rest token =>
      if w.mine i then
        (w.table.succeed i).map fun table =>
          { w with table, stage := .loops rest, gates := ⟨token, member⟩ :: w.gates }
      else none
    | _ => none
  | .fail i =>
    match w.stage with
    | .begins member rest _ =>
      if w.mine i then
        (w.table.fail i).map fun table => { w with table, stage := .refused member rest }
      else none
    | _ => none
  | .wait =>
    match w.stage with
    | .refused member rest =>
      if member = w.pid then none
      else some { w with stage := .loops rest, gone := member :: w.gone }
    | _ => none
  | .giveUp =>
    match w.stage with
    | .refused _ _ => some { w with stage := .undoes }
    | _ => none
  | .done =>
    match w.stage with
    | .loops [] => some { w with stage := .returned }
    | _ => none
  | .close =>
    match w.stage with
    | .returned | .failed | .ended => some { w with stage := .ends }
    | _ => none
  | .pop =>
    match w.stage with
    | .undoes | .ends => w.pop
    | _ => none
  | .release =>
    match w.stage, w.gates with
    | .undoes, [] => some { w.unlock with stage := .failed }
    | .ends, [] => some { w.unlock with stage := .ended }
    | _, _ => none

def tokens (w : World) : List Nat := w.stage.token ++ w.gates.map (·.token)

end World

def Table.Holds (t : Table) (id token : Nat) : Prop :=
  ∃ l ∈ t.leases, l.token = token ∧ l.owner = id

variable {t t' : Table} {w : World} {id token owner i : Nat}

/-! ## What a step does to a thread's leases -/

def Apart (id : Nat) (t t' : Table) : Prop :=
  (∀ token, t'.Holds id token ↔ t.Holds id token) ∧
    ∀ v ∈ t'.waiting, v.owner = id → ∃ u ∈ t.waiting, u.owner = id ∧ u.token = v.token

theorem Apart.of_eq (leases : t'.leases = t.leases) (waiting : t'.waiting = t.waiting) :
    Apart id t t' := by
  refine ⟨fun token => ?_, fun v member owner => ⟨v, waiting ▸ member, owner, rfl⟩⟩
  rw [Table.Holds, leases]
  rfl

theorem Table.unlink_spec (step : t.unlink token owner = some t') :
    ∃ l ∈ t.leases, l.owner = owner ∧ (token = 0 ∨ l.token = token) ∧
      t'.leases = t.leases.erase l ∧ t'.waiting = t.waiting := by
  obtain ⟨l, found, rfl⟩ := Option.map_eq_some_iff.mp step
  have fits := List.find?_some found
  simp only [decide_eq_true_eq] at fits
  exact ⟨l, mem_of_find?_eq_some found, fits.1, fits.2, rfl, rfl⟩

theorem Apart.of_unlink (other : owner ≠ id) (step : t.unlink token owner = some t') :
    Apart id t t' := by
  obtain ⟨l, mem, mine, -, leases, waiting⟩ := Table.unlink_spec step
  refine ⟨fun token => ?_, fun v member owner => ⟨v, waiting ▸ member, owner, rfl⟩⟩
  rw [Table.Holds, leases]
  constructor
  · rintro ⟨k, left, rest⟩
    exact ⟨k, mem_of_mem_erase left, rest⟩
  · rintro ⟨k, there, same, owned⟩
    have differs : k ≠ l := by
      rintro rfl
      exact other (mine.symm.trans owned)
    exact ⟨k, (mem_erase_of_ne differs).mpr there, same, owned⟩

theorem Table.Good.unlink_holds (good : t.Good) (real : token ≠ 0)
    (step : t.unlink token id = some t') (other : Nat) :
    t'.Holds id other ↔ t.Holds id other ∧ other ≠ token := by
  obtain ⟨l, mem, mine, fits, leases, -⟩ := Table.unlink_spec step
  have fits := fits.resolve_left real
  have nodup := (good.tokens.nodup_iff.mpr nodup_range').of_append_left
  rw [Table.Holds, leases]
  constructor
  · rintro ⟨k, left, rfl, owned⟩
    have there := mem_of_mem_erase left
    refine ⟨⟨k, there, rfl, owned⟩, fun same => ?_⟩
    cases good.same_lease there mem (same.trans fits.symm)
    exact (List.Nodup.of_map _ nodup).not_mem_erase left
  · rintro ⟨⟨k, there, rfl, owned⟩, differs⟩
    have unlike : k ≠ l := by
      rintro rfl
      exact differs fits
    exact ⟨k, (mem_erase_of_ne unlike).mpr there, rfl, owned⟩

theorem Table.begin_spec {mm : Mm} {mmId : Nat} (step : t.begin owner mm mmId = some t') :
    ∃ slot, t'.leases = t.leases ++ [⟨t.quiesceNext + 1, owner, mm, slot⟩] ∧
      t'.waiting = ⟨t.quiesceNext + 1, owner, false⟩ :: t.waiting ∧
      t'.quiesceNext = t.quiesceNext + 1 := by
  simp only [Table.begin] at step
  split at step
  · cases step
  obtain ⟨slot, -, step⟩ := Option.bind_eq_some_iff.mp step
  split at step
  · cases step
  split at step
  · cases step
  split at step
  · cases step
  cases step
  exact ⟨slot, rfl, rfl, rfl⟩

theorem Table.observe_spec (step : t.observe i = some t') :
    ∃ v, t.waiting[i]? = some v ∧ t'.leases = t.leases ∧
      t'.waiting = t.waiting.set i { v with observed := true } := by
  obtain ⟨v, here, step⟩ := Option.bind_eq_some_iff.mp step
  obtain ⟨l, -, step⟩ := Option.bind_eq_some_iff.mp step
  obtain ⟨s, -, step⟩ := Option.bind_eq_some_iff.mp step
  split at step
  · cases step
  cases step
  exact ⟨v, here, rfl, rfl⟩

theorem Table.succeed_spec (step : t.succeed i = some t') :
    ∃ v, t.waiting[i]? = some v ∧ t'.leases = t.leases ∧
      t'.waiting = t.waiting.eraseIdx i := by
  simp only [Table.succeed] at step
  split at step
  · next here =>
    cases step
    exact ⟨_, here, rfl, rfl⟩
  · cases step

theorem Apart.of_observe (step : t.observe i = some t') : Apart id t t' := by
  obtain ⟨v, here, leases, waiting⟩ := Table.observe_spec step
  refine ⟨fun token => by rw [Table.Holds, leases]; rfl, fun u member owned => ?_⟩
  rw [waiting] at member
  obtain old | rfl := mem_or_eq_of_mem_set member
  · exact ⟨u, old, owned, rfl⟩
  · exact ⟨v, mem_of_getElem? here, owned, rfl⟩

theorem Apart.of_succeed (step : t.succeed i = some t') : Apart id t t' := by
  obtain ⟨v, here, leases, waiting⟩ := Table.succeed_spec step
  refine ⟨fun token => by rw [Table.Holds, leases]; rfl, fun u member owned => ?_⟩
  rw [waiting] at member
  exact ⟨u, mem_of_mem_eraseIdx member, owned, rfl⟩

theorem World.apart {act : Act} (foreign : w.foreign act = true)
    (step : w.table.next act = some t') : Apart w.id w.table t' := by
  by_cases elsewhere : act.ofLease = false
  · obtain ⟨leases, waiting, -⟩ := Table.next_leases elsewhere step
    exact .of_eq leases waiting
  cases act with
  | begin owner mm mmId =>
    have other : owner ≠ w.id := by simpa [World.foreign] using foreign
    obtain ⟨slot, leases, waiting, -⟩ := Table.begin_spec step
    refine ⟨fun token => ?_, fun v member owned => ?_⟩
    · rw [Table.Holds, leases]
      constructor
      · rintro ⟨k, there, same, owned⟩
        obtain old | new := mem_append.mp there
        · exact ⟨k, old, same, owned⟩
        · cases mem_singleton.mp new
          exact absurd owned other
      · rintro ⟨k, there, rest⟩
        exact ⟨k, mem_append_left _ there, rest⟩
    · rw [waiting] at member
      obtain rfl | old := mem_cons.mp member
      · exact absurd owned other
      · exact ⟨v, old, owned, rfl⟩
  | observe i => exact .of_observe step
  | succeed i => exact .of_succeed step
  | fail i =>
    obtain ⟨v, here, step⟩ := Option.bind_eq_some_iff.mp step
    have other : v.owner ≠ w.id := by
      simp only [World.foreign, here, Option.map_some] at foreign
      simpa using foreign
    obtain ⟨holds, waits⟩ := Apart.of_unlink other step
    refine ⟨holds, fun u member owned => ?_⟩
    obtain ⟨x, old, rest⟩ := waits u member owned
    exact ⟨x, mem_of_mem_eraseIdx old, rest⟩
  | finish token owner =>
    have other : owner ≠ w.id := by simpa [World.foreign] using foreign
    simp only [Table.next, Table.finish] at step
    split at step
    · cases step
    exact .of_unlink other step
  | exit owner =>
    have other : owner ≠ w.id := by simpa [World.foreign] using foreign
    simp only [Table.next, Table.exit] at step
    split at step
    · cases step
    exact .of_unlink other step
  | _ => exact absurd rfl elsewhere

end Vmctx.Slots
