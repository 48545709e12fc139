import Mathlib.Algebra.Group.Nat.Defs
/-!
# Tables that grow

A table with a capacity doubles it until it holds what is needed, and gives up when the size would
not fit in a word or there is no memory. A row is put at the end where there is room; a row put
beyond the capacity would be written outside of the table.
-/

namespace Vmctx.Table

open List

variable {α : Type}

inductive Halt
  | abort
  | overrun
  deriving DecidableEq, Repr

def sizeMax : Nat := 2 ^ 64 - 1

/-- Double until there is enough or the next would not fit in a word. As many rounds as a word has
bits exceed every word. -/
def double : (rounds n need : Nat) → Nat
  | 0, n, _ => n
  | rounds + 1, n, need =>
    if n < need ∧ n ≤ sizeMax / 2 then double rounds (2 * n) need else n

/-- The capacity after room was made for a number of rows of some size, if there is memory. -/
def reserve (size capacity need : Nat) (memory : Bool) : Option Nat :=
  if need ≤ capacity then some capacity
  else
    let n := double 64 (if capacity = 0 then 64 else capacity) need
    if need ≤ n ∧ n ≤ sizeMax / size ∧ memory then some n else none

theorem reserve_room {size capacity need n : Nat} {memory : Bool}
    (reserved : reserve size capacity need memory = some n) : need ≤ n := by
  simp only [reserve] at reserved
  split at reserved
  · next fits =>
    cases reserved
    exact fits
  · obtain ⟨fits, same⟩ := Option.ite_none_right_eq_some.mp reserved
    cases same
    exact fits.1

def within (capacity : Nat) (rows : List α) (row : α) : Option (List α) :=
  if rows.length < capacity then some (rows ++ [row]) else none

theorem within_room {capacity : Nat} (rows : List α) (row : α) (room : rows.length < capacity) :
    within capacity rows row = some (rows ++ [row]) := if_pos room

theorem within_copies {capacity : Nat} {p : α → Bool} {copy : α → α} (source rows : List α)
    (room : rows.length + source.countP p ≤ capacity) :
    source.foldlM
        (fun rows row => if p row then within capacity rows (copy row) else some rows) rows =
      some (rows ++ (source.filter p).map copy) := by
  induction source generalizing rows with
  | nil => simp only [foldlM_nil, filter_nil, map_nil, append_nil]; rfl
  | cons row rest ih =>
    rw [foldlM_cons, filter_cons]
    rw [countP_cons] at room
    split
    · next chosen =>
      rw [if_pos chosen] at room
      rw [within_room _ _ (by omega)]
      refine (ih _ ?_).trans ?_
      · rw [length_append, length_singleton]
        omega
      · rw [append_assoc, singleton_append, map_cons]
    · next other =>
      rw [if_neg other] at room
      exact ih rows room

/-! ## The table with its capacity -/

/-- An array that grows. -/
structure Growing (α : Type) where
  rows : List α
  capacity : Nat
  deriving DecidableEq, Repr

namespace Growing

def new : Growing α := ⟨[], 0⟩

def reserve (size : Nat) (t : Growing α) (need : Nat) (memory : Bool) : Except Halt (Growing α) :=
  match Table.reserve size t.capacity need memory with
  | none => .error .abort
  | some capacity => .ok { t with capacity }

def keep (t : Growing α) : Option (List α) → Except Halt (Growing α)
  | none => .error .overrun
  | some rows => .ok { t with rows }

def put (t : Growing α) (row : α) : Except Halt (Growing α) := t.keep (within t.capacity t.rows row)

def copy (t : Growing α) (p : α → Bool) (copied : α → α) : Except Halt (Growing α) :=
  t.keep (t.rows.foldlM
    (fun rows row => if p row then within t.capacity rows (copied row) else some rows) t.rows)

theorem reserve_cases (size : Nat) (t : Growing α) (need : Nat) (memory : Bool) :
    t.reserve size need memory = .error .abort ∨
      ∃ capacity, need ≤ capacity ∧ t.reserve size need memory = .ok { t with capacity } := by
  simp only [reserve]
  cases reserved : Table.reserve size t.capacity need memory with
  | none => exact .inl rfl
  | some capacity => exact .inr ⟨capacity, reserve_room reserved, rfl⟩

theorem put_room {t : Growing α} (row : α) (room : t.rows.length < t.capacity) :
    t.put row = .ok { t with rows := t.rows ++ [row] } := by
  rw [put, within_room _ _ room]
  rfl

theorem copy_room {t : Growing α} {p : α → Bool} (copied : α → α)
    (room : t.rows.length + t.rows.countP p ≤ t.capacity) :
    t.copy p copied = .ok { t with rows := t.rows ++ (t.rows.filter p).map copied } := by
  rw [copy, within_copies _ _ room]
  rfl

end Growing

end Vmctx.Table
