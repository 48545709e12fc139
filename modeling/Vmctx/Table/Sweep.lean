import Mathlib.Algebra.BigOperators.Group.List.Basic
import Mathlib.Algebra.GroupWithZero.Nat
import Mathlib.Data.List.Induction
import Mathlib.Data.List.Perm.Basic
/-!
# Sweeping a table

A table is the used part of an array, in no particular order. A sweep looks at each row in turn. A
row stays, is replaced in place, or goes, in which case the last row is moved into its place and is
looked at next; what is left of a row besides is put at the end. Rows that are put at the end are
looked at too, and have to stay. What a sweep leaves is then what every row leaves, in some order,
provided there is room for it.
-/

namespace Vmctx.Table

open List

variable {α : Type}

def swapRemove (rows : List α) (i : Nat) : List α :=
  match rows.getLast? with
  | none => rows
  | some last => (rows.set i last).dropLast

theorem swapRemove_spec (done todo : List α) (row : α) :
    ∃ rest, swapRemove (done ++ row :: todo) done.length = done ++ rest ∧ rest.Perm todo := by
  cases todo using List.reverseRecOn with
  | nil =>
    refine ⟨[], ?_, .refl _⟩
    simp [swapRemove]
  | append_singleton init last =>
    refine ⟨last :: init, ?_, (perm_append_singleton last init).symm⟩
    have ends : (done ++ row :: (init ++ [last])).getLast? = some last := by
      rw [← cons_append, ← append_assoc, List.getLast?_concat]
    simp only [swapRemove, ends]
    have replaced : (done ++ row :: (init ++ [last])).set done.length last =
        done ++ last :: init ++ [last] := by
      simp
    rw [replaced, dropLast_concat]

/-- What a sweep does with a row. -/
inductive Verdict (α : Type)
  | keep
  | split (first : α) (rest : List α)
  | remove (rest : List α)
  deriving DecidableEq

namespace Verdict

def pieces (row : α) : Verdict α → List α
  | keep => [row]
  | split first rest => first :: rest
  | remove rest => rest

def rest : Verdict α → List α
  | keep => []
  | split _ rest => rest
  | remove rest => rest

def growth : Verdict α → Nat
  | keep => 0
  | split _ rest => rest.length
  | remove rest => rest.length - 1

end Verdict

variable (put : List α → α → Option (List α)) (verdict : α → Verdict α)

def putAll : List α → List α → Option (List α)
  | rows, [] => some rows
  | rows, row :: rest => (put rows row).bind fun rows => putAll rows rest

/-- The sweep from a position on. Nothing is returned when a row could not be put at the end, or
when the rounds are exhausted. -/
def sweep : (rounds i : Nat) → List α → Option (List α)
  | 0, _, _ => none
  | rounds + 1, i, rows =>
    match rows[i]? with
    | none => some rows
    | some row =>
      match verdict row with
      | .keep => sweep rounds (i + 1) rows
      | .split first rest => (putAll put (rows.set i first) rest).bind (sweep rounds (i + 1))
      | .remove rest => (putAll put (swapRemove rows i) rest).bind (sweep rounds i)

def rounds (rows : List α) : Nat := (rows.map fun row => 1 + (verdict row).rest.length).sum

def growth (rows : List α) : Nat := (rows.map fun row => (verdict row).growth).sum

def leftOf (rows : List α) : List α := rows.flatMap fun row => (verdict row).pieces row

variable {put verdict} {capacity : Nat}

theorem rounds_cons (row : α) (rows : List α) :
    rounds verdict (row :: rows) = 1 + (verdict row).rest.length + rounds verdict rows := rfl

theorem growth_cons (row : α) (rows : List α) :
    growth verdict (row :: rows) = (verdict row).growth + growth verdict rows := rfl

theorem leftOf_cons (row : α) (rows : List α) :
    leftOf verdict (row :: rows) = (verdict row).pieces row ++ leftOf verdict rows := rfl

theorem rounds_append (rows more : List α) :
    rounds verdict (rows ++ more) = rounds verdict rows + rounds verdict more := by
  rw [rounds, map_append, sum_append]
  rfl

theorem growth_append (rows more : List α) :
    growth verdict (rows ++ more) = growth verdict rows + growth verdict more := by
  rw [growth, map_append, sum_append]
  rfl

theorem leftOf_append (rows more : List α) :
    leftOf verdict (rows ++ more) = leftOf verdict rows ++ leftOf verdict more :=
  flatMap_append

theorem growth_le_countP {p : α → Bool} (rows : List α)
    (each : ∀ row ∈ rows, (verdict row).growth ≤ if p row then 1 else 0) :
    growth verdict rows ≤ rows.countP p := by
  induction rows with
  | nil => exact Nat.le_refl 0
  | cons row rows ih =>
    have first := each row mem_cons_self
    have others := ih fun row member => each row (.tail _ member)
    rw [growth_cons, countP_cons]
    omega

theorem Verdict.length_pieces_le (v : Verdict α) (row : α) :
    (v.pieces row).length ≤ 1 + v.growth := by
  cases v with
  | keep => exact Nat.le_refl 1
  | split first rest => exact Nat.le_of_eq (Nat.add_comm _ 1)
  | remove rest =>
    simp only [Verdict.pieces, Verdict.growth]
    omega

theorem length_leftOf_le (rows : List α) :
    (leftOf verdict rows).length ≤ rows.length + growth verdict rows := by
  induction rows with
  | nil => exact Nat.le_refl 0
  | cons row rows ih =>
    have one := (verdict row).length_pieces_le row
    rw [leftOf_cons, growth_cons, length_append, length_cons]
    omega

theorem length_flatMap_le {pieces : α → List α} {p q : α → Bool} (rows : List α)
    (each : ∀ row ∈ rows, (pieces row).length ≤
      1 + (if p row then 1 else 0) + if q row then 1 else 0) :
    (rows.flatMap pieces).length ≤ rows.length + rows.countP p + rows.countP q := by
  induction rows with
  | nil => exact Nat.le_refl 0
  | cons row rows ih =>
    have first := each row mem_cons_self
    have others := ih fun row member => each row (.tail _ member)
    rw [flatMap_cons, length_append, length_cons, countP_cons,
      countP_cons]
    omega

theorem putAll_eq (room : ∀ rows row, rows.length < capacity → put rows row = some (rows ++ [row]))
    (rows more : List α) (fits : rows.length + more.length ≤ capacity) :
    putAll put rows more = some (rows ++ more) := by
  induction more generalizing rows with
  | nil => rw [putAll, append_nil]
  | cons row more ih =>
    rw [length_cons] at fits
    have small : (rows ++ [row]).length + more.length ≤ capacity := by
      rw [length_append, length_singleton]
      omega
    rw [putAll, room rows row (by omega), Option.bind_some, ih _ small, append_assoc]
    rfl

theorem kept_rows {rows : List α} (stay : ∀ row ∈ rows, verdict row = .keep) :
    rounds verdict rows = rows.length ∧ growth verdict rows = 0 ∧ leftOf verdict rows = rows := by
  induction rows with
  | nil => exact ⟨rfl, rfl, rfl⟩
  | cons row rows ih =>
    obtain ⟨roundsOf, growthOf, left⟩ := ih fun other here => stay other (.tail _ here)
    have here := stay row mem_cons_self
    rw [rounds_cons, growth_cons, leftOf_cons, here, roundsOf, growthOf, left]
    refine ⟨?_, rfl, rfl⟩
    rw [length_cons]
    exact Nat.add_comm 1 _

/-- One round leaves at most one piece of the row in place, and goes on with the other rows, in some
order, and with those of its pieces that were put at the end. -/
theorem sweep_round {Put : List α → Prop} {done todo : List α} {row : α} {fuel : Nat}
    (puts : ∀ rows, rows.length + (verdict row).rest.length ≤
        (done ++ row :: todo).length + (verdict row).growth →
      ∃ kept, putAll put rows (verdict row).rest = some (rows ++ kept) ∧ Put kept) :
    ∃ front others kept, sweep put verdict (fuel + 1) done.length (done ++ row :: todo) =
        sweep put verdict fuel (done ++ front).length (done ++ front ++ (others ++ kept)) ∧
      (verdict row).pieces row = front ++ (verdict row).rest ∧ others.Perm todo ∧ Put kept := by
  have here : (done ++ row :: todo)[done.length]? = some row := by simp
  simp only [sweep, here]
  cases decided : verdict row with
  | keep =>
    rw [decided] at puts
    obtain ⟨kept, all, holds⟩ := puts (done ++ row :: todo) (Nat.le_refl _)
    have nothing : kept = [] := by simpa [putAll, Verdict.rest] using all
    exact ⟨[row], todo, kept, by simp [nothing], rfl, .refl _, holds⟩
  | split first rest =>
    rw [decided] at puts
    have replaced : (done ++ row :: todo).set done.length first = done ++ first :: todo := by simp
    obtain ⟨kept, all, holds⟩ := puts (done ++ first :: todo)
      (by simp [Verdict.rest, Verdict.growth])
    refine ⟨[first], todo, kept, ?_, rfl, .refl _, holds⟩
    show (putAll put ((done ++ row :: todo).set done.length first) rest).bind _ = _
    rw [replaced, show putAll put (done ++ first :: todo) rest = _ from all]
    simp
  | remove rest =>
    rw [decided] at puts
    obtain ⟨others, removed, same⟩ := swapRemove_spec done todo row
    obtain ⟨kept, all, holds⟩ := puts (done ++ others) (by
      simp only [length_append, length_cons, same.length_eq, Verdict.rest, Verdict.growth]
      omega)
    refine ⟨[], others, kept, ?_, rfl, same, holds⟩
    show (putAll put (swapRemove (done ++ row :: todo) done.length) rest).bind _ = _
    rw [removed, show putAll put (done ++ others) rest = _ from all]
    simp

theorem sweep_from (room : ∀ rows row, rows.length < capacity → put rows row = some (rows ++ [row]))
    (stable : ∀ row, ∀ piece ∈ (verdict row).rest, verdict piece = .keep) {fuel : Nat}
    {done todo : List α} (enough : rounds verdict todo < fuel)
    (fits : (done ++ todo).length + growth verdict todo ≤ capacity) :
    ∃ out, sweep put verdict fuel done.length (done ++ todo) = some (done ++ out) ∧
      out.Perm (leftOf verdict todo) := by
  induction fuel generalizing done todo with
  | zero => omega
  | succ fuel ih =>
    cases todo with
    | nil =>
      refine ⟨[], ?_, .refl _⟩
      simp [sweep]
    | cons row todo =>
      obtain ⟨roundsOf, growthOf, restLeft⟩ := kept_rows (stable row)
      rw [rounds_cons] at enough
      rw [growth_cons] at fits
      obtain ⟨front, others, kept, ran, pieces, same, rfl⟩ :=
        @sweep_round α put verdict (· = (verdict row).rest) done todo row fuel fun rows few =>
          ⟨_, putAll_eq room rows _ (by omega), rfl⟩
      have roundsSame : rounds verdict others = rounds verdict todo := (same.map _).sum_eq
      have growthSame : growth verdict others = growth verdict todo := (same.map _).sum_eq
      have few : front.length + (verdict row).rest.length ≤ 1 + (verdict row).growth := by
        rw [← length_append, ← pieces]
        exact (verdict row).length_pieces_le row
      obtain ⟨out, later, left⟩ := @ih (done ++ front) (others ++ (verdict row).rest)
        (by rw [rounds_append]; omega) (by
          rw [growth_append]
          simp only [length_append, length_cons, same.length_eq] at fits ⊢
          omega)
      refine ⟨front ++ out, by rw [ran, later, append_assoc], ?_⟩
      rw [leftOf_append, restLeft] at left
      rw [leftOf_cons, pieces, append_assoc]
      have moved := left.trans perm_append_comm
      exact (moved.trans ((same.flatMap_right _).append_left _)).append_left _

theorem sweep_skip {fuel : Nat} {done front rows : List α}
    (stay : ∀ row ∈ front, verdict row = .keep) :
    sweep put verdict (front.length + fuel) done.length (done ++ (front ++ rows)) =
      sweep put verdict fuel (done ++ front).length ((done ++ front) ++ rows) := by
  induction front generalizing done with
  | nil => simp
  | cons row front ih =>
    have here : (done ++ (row :: front ++ rows))[done.length]? = some row := by simp
    have moved : done ++ (row :: front ++ rows) = (done ++ [row]) ++ (front ++ rows) := by simp
    have place : done.length + 1 = (done ++ [row]).length := by simp
    have later := @ih (done ++ [row]) fun other here => stay other (.tail _ here)
    rw [length_cons, Nat.add_right_comm, sweep]
    simp only [here, stay row mem_cons_self]
    rw [moved, place, later]
    simp

/-- A sweep leaves what every row leaves, in some order, and does not move rows at the front that
stay. -/
theorem sweep_spec (room : ∀ rows row, rows.length < capacity → put rows row = some (rows ++ [row]))
    (stable : ∀ row, ∀ piece ∈ (verdict row).rest, verdict piece = .keep) {fuel : Nat}
    {front rows : List α} (stay : ∀ row ∈ front, verdict row = .keep)
    (enough : rounds verdict (front ++ rows) < fuel)
    (fits : (front ++ rows).length + growth verdict (front ++ rows) ≤ capacity) :
    ∃ out, sweep put verdict fuel 0 (front ++ rows) = some (front ++ out) ∧
      out.Perm (leftOf verdict rows) := by
  obtain ⟨roundsOf, growthOf, -⟩ := kept_rows stay
  rw [rounds_append, roundsOf] at enough
  rw [growth_append, growthOf, Nat.zero_add] at fits
  have left : rounds verdict rows < fuel - front.length := by omega
  obtain ⟨out, ran, left⟩ := sweep_from room stable left fits
  refine ⟨out, ?_, left⟩
  have skipped := @sweep_skip α put verdict (fuel - front.length) [] front rows stay
  rw [Nat.add_sub_of_le (by omega)] at skipped
  exact skipped.trans ran

/-! ## A pass over the first rows -/

/-- A pass over a fixed number of rows: a row stays, or more is put at the end and it is replaced in
place. -/
def pass (put : List α → α → Option (List α)) (change : α → Option (α × List α)) :
    (count i : Nat) → List α → Option (List α)
  | 0, _, rows => some rows
  | count + 1, i, rows =>
    match rows[i]? with
    | none => some rows
    | some row =>
      match change row with
      | none => pass put change count (i + 1) rows
      | some (first, rest) =>
        (putAll put rows rest).bind fun rows => pass put change count (i + 1) (rows.set i first)

def changed (change : α → Option (α × List α)) (row : α) : List α :=
  (change row).elim [row] fun (first, rest) => first :: rest

theorem length_le_changed (change : α → Option (α × List α)) (rows : List α) :
    rows.length ≤ (rows.flatMap (changed change)).length := by
  induction rows with
  | nil => exact Nat.le_refl 0
  | cons row rows ih =>
    have one : 1 ≤ (changed change row).length := by
      simp only [changed]
      cases change row <;> simp
    rw [flatMap_cons, length_append, length_cons]
    omega

theorem pass_spec {change : α → Option (α × List α)}
    (room : ∀ rows row, rows.length < capacity → put rows row = some (rows ++ [row]))
    {done todo tail : List α}
    (fits : (done ++ todo.flatMap (changed change) ++ tail).length ≤ capacity) :
    ∃ out, pass put change todo.length done.length (done ++ todo ++ tail) = some out ∧
      out.Perm (done ++ todo.flatMap (changed change) ++ tail) := by
  induction todo generalizing done tail with
  | nil => exact ⟨done ++ [] ++ tail, rfl, .refl _⟩
  | cons row todo ih =>
    have here : (done ++ row :: todo ++ tail)[done.length]? = some row := by simp
    simp only [length_cons, pass, here]
    cases decided : change row with
    | none =>
      have left : changed change row = [row] := by rw [changed, decided]; rfl
      rw [flatMap_cons, left] at fits ⊢
      have moved : done ++ row :: todo ++ tail = (done ++ [row]) ++ todo ++ tail := by simp
      have place : done.length + 1 = (done ++ [row]).length := by simp
      obtain ⟨out, ran, same⟩ := @ih (done ++ [row]) tail (by simpa using fits)
      refine ⟨out, ?_, by simpa using same⟩
      rw [moved, place]
      exact ran
    | some pieces =>
      obtain ⟨first, rest⟩ := pieces
      have left : changed change row = first :: rest := by rw [changed, decided]; rfl
      rw [flatMap_cons, left] at fits ⊢
      have most := length_le_changed change todo
      have all : putAll put (done ++ row :: todo ++ tail) rest =
          some (done ++ row :: todo ++ tail ++ rest) := by
        refine putAll_eq room _ _ ?_
        simp only [length_append, length_cons] at fits ⊢
        omega
      have replaced : (done ++ row :: todo ++ tail ++ rest).set done.length first =
          (done ++ [first]) ++ todo ++ (tail ++ rest) := by
        simp
      have place : done.length + 1 = (done ++ [first]).length := by simp
      obtain ⟨out, ran, same⟩ := @ih (done ++ [first]) (tail ++ rest) (by
        simp only [length_append, length_cons, length_nil] at fits ⊢
        omega)
      refine ⟨out, ?_, same.trans ?_⟩
      · show (putAll put (done ++ row :: todo ++ tail) rest).bind _ = _
        rw [all, Option.bind_some, replaced, place]
        exact ran
      · simp only [append_assoc, cons_append, nil_append]
        refine List.Perm.append_left done (List.Perm.cons first ?_)
        rw [← append_assoc]
        exact perm_append_comm

/-! ## Rows that may be lost -/

/-- Where a row is put at the end or lost, what is lost of several does not matter for the rest. -/
theorem putAll_some (lossy : ∀ rows row, put rows row = some (rows ++ [row]) ∨
      put rows row = some rows) (rows more : List α) :
    ∃ kept, putAll put rows more = some (rows ++ kept) ∧ kept.Sublist more := by
  induction more generalizing rows with
  | nil => exact ⟨[], by rw [putAll, append_nil], .refl _⟩
  | cons row more ih =>
    obtain added | lost := lossy rows row
    · obtain ⟨kept, all, sub⟩ := ih (rows ++ [row])
      refine ⟨row :: kept, ?_, sub.cons_cons row⟩
      rw [putAll, added, Option.bind_some, all, append_assoc]
      rfl
    · obtain ⟨kept, all, sub⟩ := ih rows
      exact ⟨kept, by rw [putAll, lost, Option.bind_some, all], sub.cons row⟩

theorem sweep_lossy (lossy : ∀ rows row, put rows row = some (rows ++ [row]) ∨
      put rows row = some rows)
    (stable : ∀ row, ∀ piece ∈ (verdict row).rest, verdict piece = .keep) {fuel : Nat}
    {done todo : List α} (enough : rounds verdict todo < fuel) :
    ∃ out, sweep put verdict fuel done.length (done ++ todo) = some (done ++ out) ∧
      ∀ piece ∈ out, piece ∈ leftOf verdict todo := by
  induction fuel generalizing done todo with
  | zero => omega
  | succ fuel ih =>
    cases todo with
    | nil =>
      refine ⟨[], ?_, fun _ here => here⟩
      simp [sweep]
    | cons row todo =>
      rw [rounds_cons] at enough
      obtain ⟨front, others, kept, ran, pieces, same, sub⟩ :=
        @sweep_round α put verdict _ done todo row fuel fun rows _ => putAll_some lossy rows _
      -- What is put at the end takes a round each and is left.
      obtain ⟨roundsOf, -, restLeft⟩ := kept_rows fun piece here =>
        stable row piece (sub.subset here)
      have short := sub.length_le
      have roundsSame : rounds verdict others = rounds verdict todo := (same.map _).sum_eq
      obtain ⟨out, later, left⟩ := @ih (done ++ front) (others ++ kept)
        (by rw [rounds_append]; omega)
      refine ⟨front ++ out, by rw [ran, later, append_assoc], fun piece member => ?_⟩
      rw [leftOf_cons, pieces, append_assoc]
      obtain first | member := mem_append.mp member
      · exact mem_append_left _ first
      have member := left piece member
      rw [leftOf_append, restLeft] at member
      obtain old | new := mem_append.mp member
      · exact mem_append_right _ (mem_append_right _ ((same.flatMap_right _).mem_iff.mp old))
      · exact mem_append_right _ (mem_append_left _ (sub.subset new))

end Vmctx.Table
