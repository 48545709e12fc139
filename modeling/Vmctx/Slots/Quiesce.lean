import Vmctx.Slots.Snapshot
/-!
# What a snapshot holds

The leases of a thread in the kernel are those of its gates and of the `BEGIN` it is in. So
`snapshot_end` never meets a gate without a lease, and what `snapshot_begin` leaves can be read off
the kernel's table: all of it or nothing.
-/

namespace Vmctx.Slots

open Vmctx.System List

structure World.Good (w : World) : Prop where
  table : w.table.Good
  holds : ∀ token, w.table.Holds w.id token ↔ token ∈ w.tokens
  nodup : w.tokens.Nodup
  waits : ∀ v ∈ w.table.waiting, v.owner = w.id → v.token ∈ w.stage.token
  mutex : w.serial = true ↔ w.mutex = some w.id
  rest : ∀ rest, w.stage.rest = some rest → w.serial = true ∧
    (w.gates.map (·.member) ++ w.gone ++ rest).Perm w.members
  target : w.pid ∉ w.gone
  closed : w.stage.closed = true → w.serial = false ∧ w.gates = []
  sound : w.stage ≠ .aborted

variable {t t' : Table} {w w' : World} {id token i : Nat}

/-! ## Every step -/

def World.Cleared (w : World) : Move → Prop
  | .kernel act => Slots.Cleared w.table act
  | _ => True

theorem World.Good.beside (good : w.Good) (table : t'.Good) (apart : Apart w.id w.table t') :
    World.Good { w with table := t' } :=
  { good with
    table := table
    holds := fun token => (apart.1 token).trans (good.holds token)
    waits := fun v member owned => by
      obtain ⟨u, old, theirs, same⟩ := apart.2 v member owned
      exact same ▸ good.waits u old theirs }

variable {member : Nat} {rest : List Nat}

theorem World.Good.unwaited (good : w.Good) (quiet : w.stage.token = []) {v : Waiting}
    (there : v ∈ w.table.waiting) : v.owner ≠ w.id := by
  intro owned
  have waits := good.waits v there owned
  rw [quiet] at waits
  exact absurd waits not_mem_nil

/-- A move of a thread outside of `BEGIN` that touches neither the table nor the gates. -/
theorem World.Good.still (good : w.Good) (quiet : w.stage.token = []) (token : w'.stage.token = [])
    (table : w'.table = w.table) (same : w'.id = w.id) (gates : w'.gates = w.gates)
    (mutex : w'.serial = true ↔ w'.mutex = some w'.id)
    (rest : ∀ rest, w'.stage.rest = some rest → w'.serial = true ∧
      (w'.gates.map (·.member) ++ w'.gone ++ rest).Perm w'.members)
    (target : w'.pid ∉ w'.gone)
    (closed : w'.stage.closed = true → w'.serial = false ∧ w'.gates = [])
    (sound : w'.stage ≠ .aborted) : w'.Good := by
  have tokens : w'.tokens = w.tokens := by simp only [World.tokens, quiet, token, gates]
  refine ⟨table ▸ good.table, fun other => ?_, tokens ▸ good.nodup, fun v there owned => ?_, mutex,
    rest, target, closed, sound⟩
  · rw [table, same, tokens]
    exact good.holds other
  · rw [table] at there
    exact absurd (owned.trans same) (good.unwaited quiet there)

theorem World.Good.pass (good : w.Good) (here : w.stage.rest = some (member :: rest))
    (quiet : w.stage.token = []) (other : member ≠ w.pid) :
    World.Good { w with stage := .loops rest, gone := member :: w.gone } := by
  obtain ⟨serial, all⟩ := good.rest _ here
  refine good.still quiet rfl rfl rfl rfl good.mutex ?_ ?_ nofun nofun
  · rintro _ ⟨⟩
    refine ⟨serial, List.Perm.trans ?_ all⟩
    simp only [append_assoc, cons_append]
    exact (perm_middle.symm.append_left _)
  · exact not_mem_cons_of_ne_of_not_mem other.symm good.target

variable {stage : Stage}

theorem World.Good.move (good : w.Good) (quiet : w.stage.token = []) (token : stage.token = [])
    (rest : ∀ rest, stage.rest = some rest → w.stage.rest = some rest)
    (closed : stage.closed = false) (sound : stage ≠ .aborted) : World.Good { w with stage } :=
  good.still quiet token rfl rfl rfl good.mutex
    (fun members here => good.rest members (rest members here)) good.target
    (fun yes => absurd (closed.symm.trans yes) nofun) sound

theorem mem_tail_iff {token other : Nat} {l : List Nat} (nodup : (token :: l).Nodup) :
    other ∈ token :: l ∧ other ≠ token ↔ other ∈ l := by
  have left := (nodup_cons.mp nodup).1
  rw [mem_cons, or_and_right, and_not_self_iff, false_or, and_iff_left_iff_imp]
  exact fun here same => left (same ▸ here)

theorem World.Good.pop (good : w.Good) (quiet : w.stage.token = []) (rest : w.stage.rest = none)
    (closed : w.stage.closed = false) (step : w.pop = some w') : w'.Good := by
  simp only [World.pop] at step
  split at step
  · cases step
  next gate gates split =>
  have tokens : w.tokens = gate.token :: gates.map (·.token) := by
    rw [World.tokens, quiet, split]
    rfl
  have free : w.table.waiting.any (·.owner = w.id) = false := by
    refine any_eq_false.mpr fun v there => ?_
    rw [decide_eq_true_eq]
    exact good.unwaited quiet there
  obtain ⟨l, mem, same, owned⟩ := (good.holds gate.token).mpr (by simp [tokens])
  have real : gate.token ≠ 0 := by
    have issued := good.table.issued (mem_append_left _ (mem_map_of_mem mem))
    omega
  have opens : w.table.finish gate.token w.id = w.table.unlink gate.token w.id := by
    rw [Table.finish, if_neg]
    rintro (zero | waiting)
    · exact real zero
    · exact absurd (free.symm.trans waiting) (by decide)
  split at step
  · next table ends =>
    cases step
    rw [opens] at ends
    have nodup := good.nodup
    rw [tokens] at nodup
    have after : World.tokens { w with table, gates } = gates.map (·.token) := by
      rw [World.tokens, quiet]
      rfl
    exact { good with
      table := good.table.unlink_own free ends
      holds := fun other => by
        rw [after]
        refine (good.table.unlink_holds real ends other).trans ?_
        rw [good.holds other, tokens]
        exact mem_tail_iff nodup
      nodup := by
        rw [after]
        exact (nodup_cons.mp nodup).2
      waits := fun v there owned => by
        obtain ⟨-, -, -, -, -, waiting⟩ := Table.unlink_spec ends
        exact good.waits v (waiting ▸ there) owned
      rest := fun members here => by rw [rest] at here; cases here
      closed := fun yes => absurd (closed.symm.trans yes) (by decide) }
  · next refused =>
    -- `END` finds the lease.
    rw [opens] at refused
    have missing := List.find?_eq_none.mp (Option.map_eq_none_iff.mp refused) l mem
    simp [same, owned] at missing

theorem World.Good.release (good : w.Good) (quiet : w.stage.token = []) (gates : w.gates = [])
    (token : stage.token = []) (rest : stage.rest = none) (sound : stage ≠ .aborted) :
    World.Good { w.unlock with stage } := by
  have fields : w.unlock.table = w.table ∧ w.unlock.id = w.id ∧ w.unlock.gates = [] ∧
      w.unlock.serial = false ∧ w.unlock.gone = w.gone ∧ w.unlock.pid = w.pid := by
    simp only [World.unlock]
    split
    · exact ⟨rfl, rfl, gates, rfl, rfl, rfl⟩
    case isFalse off => exact ⟨rfl, rfl, gates, by simpa using off, rfl, rfl⟩
  obtain ⟨table, id, none, serial, gone, pid⟩ := fields
  refine good.still quiet token table id (none.trans gates.symm) ?_
    (fun members here => absurd (rest.symm.trans here) nofun) ?_ (fun _ => ⟨serial, none⟩) sound
  · rw [serial, id]
    refine ⟨nofun, fun held => ?_⟩
    simp only [World.unlock] at held
    split at held
    · cases held
    case isFalse off => exact absurd (good.mutex.mpr held) off
  · rw [gone, pid]
    exact good.target

theorem World.Good.alone {v u : Waiting} {token : Nat} (good : w.Good)
    (stage : w.stage.token = [token]) (here : w.table.waiting[i]? = some v)
    (owned : v.owner = w.id) (left : u ∈ w.table.waiting.eraseIdx i) : u.owner ≠ w.id := by
  intro theirs
  have first := good.waits v (mem_of_getElem? here) owned
  have second := good.waits u (mem_of_mem_eraseIdx left) theirs
  rw [stage, mem_singleton] at first second
  obtain ⟨before, after, split, -, erased⟩ := around here
  have separate := good.table.separate
  rw [split, map_append, map_cons] at separate
  refine (nodup_cons.mp (nodup_middle.mp separate)).1 ?_
  rw [erased] at left
  rw [first, ← second, ← map_append]
  exact mem_map_of_mem left

theorem World.mine_iff : w.mine i = true ↔ ∃ v, w.table.waiting[i]? = some v ∧ v.owner = w.id := by
  simp only [World.mine, decide_eq_true_eq, Option.map_eq_some_iff]

section

variable (good : w.Good)
include good

theorem World.Good.begin {mm : Mm} (here : w.stage = .loops (member :: rest))
    (step : w.table.begin w.id mm 0 = some t') :
    World.Good { w with table := t', stage := .begins member rest t'.quiesceNext } := by
  obtain ⟨slot, leases, waiting, next⟩ := Table.begin_spec step
  have tokens : w.tokens = w.gates.map (·.token) := by rw [World.tokens, here]; rfl
  have fresh : t'.quiesceNext ∉ w.gates.map (·.token) := by
    intro old
    rw [← tokens] at old
    obtain ⟨l, mem, same, -⟩ := (good.holds _).mpr old
    have issued := good.table.issued (mem_append_left _ (mem_map_of_mem mem))
    omega
  exact { good with
    table := good.table.begin step
    holds := fun token => by
      have holds := good.holds token
      rw [tokens] at holds
      show _ ↔ token ∈ t'.quiesceNext :: w.gates.map (·.token)
      rw [Table.Holds, leases, mem_cons, ← holds, next]
      constructor
      · rintro ⟨k, there, same, owned⟩
        obtain old | new := mem_append.mp there
        · exact .inr ⟨k, old, same, owned⟩
        · cases mem_singleton.mp new
          exact .inl same.symm
      · rintro (rfl | ⟨k, there, same, owned⟩)
        · exact ⟨_, mem_append_right _ (mem_singleton_self _), rfl, rfl⟩
        · exact ⟨k, mem_append_left _ there, same, owned⟩
    nodup := by
      have nodup := good.nodup
      rw [tokens] at nodup
      exact nodup_cons.mpr ⟨fresh, nodup⟩
    waits := fun v there owned => by
      have there : v ∈ t'.waiting := there
      rw [waiting] at there
      obtain rfl | old := mem_cons.mp there
      · exact mem_singleton.mpr next.symm
      · exact absurd owned (good.unwaited (by rw [here]; rfl) old)
    rest := by
      rintro _ ⟨⟩
      exact good.rest _ (by rw [here]; rfl)
    closed := nofun
    sound := nofun }

theorem World.Good.succeed {token : Nat} (here : w.stage = .begins member rest token)
    (mine : w.mine i = true) (step : w.table.succeed i = some t') :
    World.Good { w with
      table := t', stage := .loops rest, gates := ⟨token, member⟩ :: w.gates } := by
  obtain ⟨v, there, owned⟩ := World.mine_iff.mp mine
  obtain ⟨-, -, -, waiting⟩ := Table.succeed_spec step
  obtain ⟨serial, all⟩ := good.rest (member :: rest) (by rw [here]; rfl)
  have tokens : w.tokens = token :: w.gates.map (·.token) := by rw [World.tokens, here]; rfl
  exact { good with
    table := good.table.succeed step
    holds := fun other => by
      refine ((Apart.of_succeed step).1 other).trans ((good.holds other).trans ?_)
      rw [tokens]
      rfl
    nodup := by
      have nodup := good.nodup
      rw [tokens] at nodup
      exact nodup
    waits := fun u left theirs => by
      have left : u ∈ t'.waiting := left
      rw [waiting] at left
      exact absurd theirs (good.alone (by rw [here]; rfl) there owned left)
    rest := by
      rintro _ ⟨⟩
      refine ⟨serial, List.Perm.trans ?_ all⟩
      exact perm_middle.symm
    closed := nofun
    sound := nofun }

theorem World.Good.fail {token : Nat} (here : w.stage = .begins member rest token)
    (mine : w.mine i = true) (step : w.table.fail i = some t') :
    World.Good { w with table := t', stage := .refused member rest } := by
  obtain ⟨v, there, owned⟩ := World.mine_iff.mp mine
  have table := good.table.fail step
  simp only [Table.fail, there, Option.bind_some, owned] at step
  obtain ⟨-, -, -, -, -, waiting⟩ := Table.unlink_spec step
  have named : v.token = token := by
    have waits := good.waits v (mem_of_getElem? there) owned
    rw [here] at waits
    exact mem_singleton.mp waits
  have real := (good.table.waits there).1
  have tokens : w.tokens = token :: w.gates.map (·.token) := by rw [World.tokens, here]; rfl
  have nodup := good.nodup
  rw [tokens] at nodup
  -- The list of the leases is not changed by the end of the wait.
  have unlinked (other : Nat) :
      t'.Holds w.id other ↔ w.table.Holds w.id other ∧ other ≠ v.token := by
    have step : w.table.unlink v.token w.id = some { t' with waiting := w.table.waiting } := by
      obtain ⟨m, found, rfl⟩ := Option.map_eq_some_iff.mp step
      exact Option.map_eq_some_iff.mpr ⟨m, found, rfl⟩
    exact good.table.unlink_holds real step other
  exact { good with
    table := table
    holds := fun other => by
      show _ ↔ other ∈ w.gates.map (·.token)
      rw [unlinked other, good.holds other, tokens, named]
      exact mem_tail_iff nodup
    nodup := (nodup_cons.mp nodup).2
    waits := fun u left theirs => by
      have left : u ∈ t'.waiting := left
      rw [waiting] at left
      exact absurd theirs (good.alone (by rw [here]; rfl) there owned left)
    rest := by
      rintro _ ⟨⟩
      exact good.rest _ (by rw [here]; rfl)
    closed := by simp [Stage.closed]
    sound := by simp }

theorem World.Good.start {pid : Nat} {found : Bool} (closed : w.stage.closed = true)
    (quiet : w.stage.token = []) :
    World.Good { w with
      pid
      stage := if found then .waits else .failed
      serial := false
      gates := []
      members := []
      gone := [] } := by
  obtain ⟨serial, gates⟩ := good.closed closed
  refine good.still quiet ?_ rfl rfl gates.symm (serial ▸ good.mutex) ?_ not_mem_nil
    (fun _ => ⟨rfl, rfl⟩) ?_
  · cases found <;> rfl
  · cases found <;> exact nofun
  · cases found <;> exact nofun

/-- The mutex passes between other threads. -/
theorem World.Good.others {mutex : Option Nat} (was : w.mutex ≠ some w.id)
    (now : mutex ≠ some w.id) : World.Good { w with mutex } :=
  { good with mutex := ⟨fun on => absurd (good.mutex.mp on) was, fun held => absurd held now⟩ }

theorem World.Good.lock {members : List Nat} (here : w.stage = .waits) :
    World.Good { w with
      mutex := some w.id
      serial := true
      stage := .loops members
      members
      gone := [] } := by
  obtain ⟨-, gates⟩ := good.closed (by rw [here]; rfl)
  refine good.still (by rw [here]; rfl) rfl rfl rfl rfl ⟨fun _ => rfl, fun _ => rfl⟩ ?_ not_mem_nil
    nofun nofun
  rintro _ ⟨⟩
  refine ⟨rfl, ?_⟩
  rw [gates]
  exact .refl _

/-- A stage from which the call goes on without a lease or a member. -/
theorem World.Good.goes (quiet : w.stage.token = []) (token : stage.token = [])
    (rest : stage.rest = none) (closed : stage.closed = false) (sound : stage ≠ .aborted) :
    World.Good { w with stage } :=
  good.move quiet token (fun _ here => absurd (rest.symm.trans here) nofun) closed sound

theorem World.Good.next {move : Move} (cleared : w.Cleared move) (step : w.next move = some w') :
    w'.Good := by
  cases move with
  | kernel act =>
    obtain ⟨foreign, step⟩ := Option.ite_none_right_eq_some.mp step
    obtain ⟨table, done, rfl⟩ := Option.map_eq_some_iff.mp step
    exact good.beside (good.table.next cleared done) (World.apart foreign done)
  | locks thread =>
    obtain ⟨free, step⟩ := Option.ite_none_left_eq_some.mp step
    cases step
    obtain ⟨other, free⟩ := not_or.mp free
    refine good.others (fun held => ?_) fun held => other (Option.some.inj held)
    simp [held] at free
  | unlocks =>
    simp only [World.next] at step
    split at step
    · next thread held =>
      obtain ⟨other, step⟩ := Option.ite_none_left_eq_some.mp step
      cases step
      refine good.others (fun mine => ?_) nofun
      exact other (Option.some.inj (held.symm.trans mine))
    · cases step
  | start pid found =>
    simp only [World.next] at step
    split at step
    case h_4 => cases step
    all_goals
      next here =>
      cases step
      exact good.start (by rw [here]; rfl) (by rw [here]; rfl)
  | lock members =>
    simp only [World.next] at step
    split at step
    · next here free =>
      cases step
      exact good.lock here
    · cases step
  | skip | wait =>
    simp only [World.next] at step
    split at step
    · next member rest here =>
      obtain ⟨other, step⟩ := Option.ite_none_left_eq_some.mp step
      cases step
      exact good.pass (by rw [here]; rfl) (by rw [here]; rfl) other
    · cases step
  | begin mm =>
    simp only [World.next] at step
    split at step
    · next member rest here =>
      obtain ⟨table, done, rfl⟩ := Option.map_eq_some_iff.mp step
      exact good.begin here done
    · cases step
  | refuse =>
    simp only [World.next] at step
    split at step
    · next member rest here =>
      cases step
      refine good.move (by rw [here]; rfl) rfl ?_ rfl nofun
      rintro _ ⟨⟩
      rw [here]
      rfl
    · cases step
  | observe i =>
    obtain ⟨-, step⟩ := Option.ite_none_right_eq_some.mp step
    obtain ⟨table, done, rfl⟩ := Option.map_eq_some_iff.mp step
    exact good.beside (good.table.observe done) (.of_observe done)
  | succeed i =>
    simp only [World.next] at step
    split at step
    · next member rest token here =>
      obtain ⟨mine, step⟩ := Option.ite_none_right_eq_some.mp step
      obtain ⟨table, done, rfl⟩ := Option.map_eq_some_iff.mp step
      exact good.succeed here mine done
    · cases step
  | fail i =>
    simp only [World.next] at step
    split at step
    · next member rest token here =>
      obtain ⟨mine, step⟩ := Option.ite_none_right_eq_some.mp step
      obtain ⟨table, done, rfl⟩ := Option.map_eq_some_iff.mp step
      exact good.fail here mine done
    · cases step
  | giveUp =>
    simp only [World.next] at step
    split at step
    · next here =>
      cases step
      exact good.goes (by rw [here]; rfl) rfl rfl rfl nofun
    · cases step
  | done =>
    simp only [World.next] at step
    split at step
    · next here =>
      cases step
      refine good.move (by rw [here]; rfl) rfl ?_ rfl nofun
      rintro _ ⟨⟩
      rw [here]
      rfl
    · cases step
  | close =>
    simp only [World.next] at step
    split at step
    case h_4 => cases step
    all_goals
      next here =>
      cases step
      exact good.goes (by rw [here]; rfl) rfl rfl rfl nofun
  | pop =>
    simp only [World.next] at step
    split at step
    case h_3 => cases step
    all_goals
      next here =>
      exact good.pop (by rw [here]; rfl) (by rw [here]; rfl) (by rw [here]; rfl) step
  | release =>
    simp only [World.next] at step
    split at step
    case h_3 => cases step
    all_goals
      next here gates =>
      cases step
      exact good.release (by rw [here]; rfl) gates rfl rfl nofun

end

theorem World.new_good (id : Nat) : (World.new id).Good where
  table := Table.new_good
  holds _ := ⟨fun ⟨_, here, _⟩ => absurd here not_mem_nil,
    fun here => absurd here not_mem_nil⟩
  nodup := nodup_nil
  waits _ here := absurd here not_mem_nil
  mutex := ⟨nofun, nofun⟩
  rest := nofun
  target := not_mem_nil
  closed _ := ⟨rfl, rfl⟩
  sound := nofun

theorem World.reached_good (run : Reach (Guarded World.Cleared (Computed World.next)) (.new id) w) :
    w.Good :=
  run.invariant (fun _ _ _ good step => good.next step.1 step.2) (World.new_good id)

/-! ## What it gives -/

structure World.Nothing (w : World) : Prop where
  leases : ∀ l ∈ w.table.leases, l.owner ≠ w.id
  waiting : ∀ v ∈ w.table.waiting, v.owner ≠ w.id
  mutex : w.mutex ≠ some w.id

/-- What a quiesce of a process, its failure and its end guarantee. -/
structure World.Contract (w : World) : Prop where
  /-- The table of slots keeps its contract. -/
  table : w.table.Contract
  /-- A quiesce that has returned holds the mutex. -/
  serial : w.stage = .returned → w.mutex = some w.id
  /-- Every enumerated member has a gate or had ended, and the target has a gate. -/
  members : w.stage = .returned → w.pid ∉ w.gone ∧
    (w.gates.map (·.member) ++ w.gone).Perm w.members
  /-- It holds one lease for each gate, and no other. -/
  gates : w.stage = .returned → (w.gates.map (·.token)).Nodup ∧
    ∀ token, w.table.Holds w.id token ↔ token ∈ w.gates.map (·.token)
  /-- No task of an address space that it leased runs. -/
  quiet : w.stage = .returned → ∀ l ∈ w.table.leases, l.owner = w.id →
    ∀ c ∈ w.table.contexts, c.mm.address = l.mm.address → c.running = false
  /-- A failed one holds nothing. -/
  failed : w.stage = .failed → w.Nothing
  /-- Nor does one that has ended. -/
  ended : w.stage = .ended → w.Nothing
  /-- To end it again does nothing. -/
  again : w.stage = .ended → (w.next .close).bind (·.next .release) = some w
  /-- Nor does it to end a failed one. -/
  untaken : w.stage = .failed →
    (w.next .close).bind (·.next .release) = some { w with stage := .ended }
  /-- No invariant that the source checks is violated. -/
  sound : w.stage ≠ .aborted

theorem World.Good.nothing (good : w.Good) (closed : w.stage.closed = true)
    (quiet : w.stage.token = []) : w.Nothing := by
  obtain ⟨serial, gates⟩ := good.closed closed
  have tokens : w.tokens = [] := by rw [World.tokens, quiet, gates]; rfl
  exact {
    leases := fun l mem owned => by
      have holds := (good.holds l.token).mp ⟨l, mem, rfl, owned⟩
      rw [tokens] at holds
      exact absurd holds not_mem_nil
    waiting := fun v there => good.unwaited quiet there
    mutex := fun held => by
      have on := good.mutex.mpr held
      rw [serial] at on
      cases on }

theorem World.Good.close (good : w.Good) (closed : w.stage = .failed ∨ w.stage = .ended) :
    (w.next .close).bind (·.next .release) = some { w with stage := .ended } := by
  have shut : w.stage.closed = true := by
    obtain here | here := closed
    · rw [here]; rfl
    · rw [here]; rfl
  obtain ⟨serial, gates⟩ := good.closed shut
  have opened : w.next .close = some { w with stage := .ends } := by
    obtain here | here := closed
    · simp only [World.next, here]
    · simp only [World.next, here]
  rw [opened, Option.bind_some]
  simp only [World.next, gates, World.unlock, serial]
  rfl

theorem World.Good.contract (good : w.Good) : w.Contract where
  table := good.table.contract
  serial here := good.mutex.mp (good.rest [] (by rw [here]; rfl)).1
  members here := by
    obtain ⟨-, all⟩ := good.rest [] (by rw [here]; rfl)
    rw [append_nil] at all
    exact ⟨good.target, all⟩
  gates here := by
    have tokens : w.tokens = w.gates.map (·.token) := by rw [World.tokens, here]; rfl
    exact ⟨tokens ▸ good.nodup, fun token => tokens ▸ good.holds token⟩
  quiet here l mem owned := by
    refine good.table.contract.excluded l mem fun v there same => ?_
    obtain ⟨m, other, token, theirs⟩ := good.table.waiting v there
    cases good.table.same_lease other mem (token.trans same)
    exact good.unwaited (by rw [here]; rfl) there (theirs.symm.trans owned)
  failed here := good.nothing (by rw [here]; rfl) (by rw [here]; rfl)
  ended here := good.nothing (by rw [here]; rfl) (by rw [here]; rfl)
  again here := by
    rw [good.close (.inr here), ← here]
  untaken here := good.close (.inl here)
  sound := good.sound

/-- Leases exclude execution: in every reached state of the kernel the counters are those of the
live leases and running tasks, a lease whose `BEGIN` has returned keeps every task of its address
space out, one whose `BEGIN` fails leaves nothing, and each is released once by its owner. In every
reached state of a thread over it, a snapshot that was taken holds the mutex and a lease for every
member that had not ended, and one that was not taken, or was ended, holds nothing. -/
theorem quiesce_contract (kernel : Reach (Guarded Cleared (Computed Table.next)) .new t)
    (thread : Reach (Guarded World.Cleared (Computed World.next)) (.new id) w) :
    t.Contract ∧ w.Contract :=
  ⟨(reached_good kernel).contract, (World.reached_good thread).contract⟩

/-- Two leases overlap on an address space with a running task; one is ended by its owner, and the
other's thread exits. -/
def overlapping : List Act :=
  [.note ⟨4096, 0⟩, .enter 0, .begin 1 ⟨4096, 0⟩ 0, .begin 2 ⟨4096, 0⟩ 1, .leave 0, .observe 1,
    .succeed 1, .fail 0, .finish 1 1, .unpin 0, .begin 2 ⟨4096, 0⟩ 0, .observe 0, .succeed 0,
    .exit 2, .enter 0]

/-- A snapshot of three members, the second of which has ended and the third ends in the `BEGIN`. -/
def snapshotOfThree : List Move :=
  [.kernel (.note ⟨4096, 0⟩), .kernel (.enter 0), .start 7 true, .lock [7, 8, 9], .begin ⟨4096, 0⟩,
    .kernel (.leave 0), .observe 0, .succeed 0, .skip, .refuse, .wait, .done]

def Act.keeps : Act → Bool
  | .forget _ => false
  | _ => true

def Move.keeps : Move → Bool
  | .kernel act => act.keeps
  | _ => true

theorem Act.keeps.cleared {act : Act} (keeps : act.keeps = true) : Cleared t act := by
  cases act with
  | forget i => cases keeps
  | _ => exact trivial

theorem Move.keeps.cleared {move : Move} (keeps : move.keeps = true) : w.Cleared move := by
  cases move with
  | kernel act => exact Act.keeps.cleared keeps
  | _ => exact trivial

/-- The leases of both threads are released, and the task runs again; the snapshot has one gate. -/
theorem quiesce_contract_overlapping : ∃ (t : Table) (w : World), t.Contract ∧ w.Contract ∧
    (t.released = [⟨3, 2, 2⟩, ⟨1, 1, 1⟩, ⟨2, 2, 2⟩] ∧ t.contexts = [⟨⟨4096, 0⟩, true, true⟩]) ∧
    w.stage = .returned ∧ w.gates = [⟨1, 7⟩] ∧ w.gone = [9, 8] := by
  have ran : (exec (fun t act => if Act.keeps act then t.next act else none)
      Table.new overlapping).any (fun t => decide
        (t.released = [⟨3, 2, 2⟩, ⟨1, 1, 1⟩, ⟨2, 2, 2⟩] ∧
          t.contexts = [⟨⟨4096, 0⟩, true, true⟩])) = true := by
    decide +kernel
  have took : (exec (fun w move => if Move.keeps move then w.next move else none)
      (World.new 3) snapshotOfThree).any (fun w => decide
        (w.stage = .returned ∧ w.gates = [⟨1, 7⟩] ∧ w.gone = [9, 8])) = true := by
    decide +kernel
  obtain ⟨t, kernel, counts⟩ := exec_exhibits_guarded ran
  obtain ⟨w, thread, holds⟩ := exec_exhibits_guarded took
  obtain ⟨below, above⟩ := quiesce_contract
    (kernel.mono fun _ _ _ step => ⟨Act.keeps.cleared step.1, step.2⟩)
    (thread.mono fun _ _ _ step => ⟨Move.keeps.cleared step.1, step.2⟩)
  exact ⟨t, w, below, above, of_decide_eq_true counts, of_decide_eq_true holds⟩

end Vmctx.Slots
