import Vmctx.System.Run
import Vmctx.Table.Sweep
/-!
# The ranges of shared file mappings

The source keeps the ranges of an address space that map a file shared, in a table of 64 entries. A
mapping is noted when it is made and forgotten when it goes; a range that is forgotten in part
leaves its remainders. Where the table has no room, a note and a remainder are lost without a word.
With room, the table answers for an address by the last call that covers it.
-/

namespace Vmctx.SharedFile

open Table Vmctx.System List

/-- `struct sh_file_range`. -/
structure Range where
  as : Nat
  start : Nat
  stop : Nat
  deriving DecidableEq, Repr

def slots : Nat := 64

def pageDown (a : Nat) : Nat := a / 4096 * 4096

def pageUp (a : Nat) : Nat := (a + 4095) % 2 ^ 64 / 4096 * 4096

/-- `sh_file_add_locked`: a row for which there is no room is dropped. -/
def add (rows : List Range) (row : Range) : Option (List Range) :=
  some (if rows.length < slots then rows ++ [row] else rows)

structure Call where
  note : Bool
  as : Nat
  addr : Nat
  len : Nat
  deriving DecidableEq, Repr

namespace Call

def lo (c : Call) : Nat := pageDown c.addr

def hi (c : Call) : Nat := pageUp (c.addr + c.len)

def Fits (c : Call) : Prop := c.addr + c.len + 4095 < 2 ^ 64

def covers (c : Call) (as x : Nat) : Bool := c.len ≠ 0 ∧ c.as = as ∧ c.lo ≤ x ∧ x < c.hi

def touches (c : Call) (as x : Nat) : Bool :=
  c.len ≠ 0 ∧ c.as = as ∧ c.addr / 4096 ≤ x / 4096 ∧ x / 4096 * 4096 < c.addr + c.len

instance (c : Call) : Decidable c.Fits := inferInstanceAs (Decidable (_ < _))

end Call

/-- `sh_file_note`. -/
def note (rows : List Range) (c : Call) : List Range :=
  if c.len = 0 then rows
  else if ⟨c.as, c.lo, c.hi⟩ ∈ rows then rows
  else if rows.length < slots then rows ++ [⟨c.as, c.lo, c.hi⟩]
  else rows

def cut (c : Call) (row : Range) : Verdict Range :=
  if row.as ≠ c.as ∨ row.stop ≤ c.lo ∨ c.hi ≤ row.start then .keep
  else .remove
    ((if row.start < c.lo then [⟨c.as, row.start, c.lo⟩] else []) ++
      if c.hi < row.stop then [⟨c.as, c.hi, row.stop⟩] else [])

/-- `sh_file_forget`. -/
def forget (rows : List Range) (c : Call) : Option (List Range) :=
  if c.len = 0 then some rows else sweep add (cut c) (3 * rows.length + 1) 0 rows

/-- `sh_file_has`. -/
def has (rows : List Range) (as x : Nat) : Bool :=
  rows.any fun row => row.as = as ∧ row.start ≤ x ∧ x < row.stop

def apply (rows : List Range) (c : Call) : Option (List Range) :=
  if c.note then some (note rows c) else forget rows c

/-! ## A forgetting always returns -/

variable {rows after : List Range} {c : Call}

theorem add_lossy (rows : List Range) (row : Range) :
    add rows row = some (rows ++ [row]) ∨ add rows row = some rows := by
  simp only [add]
  split
  · exact .inl rfl
  · exact .inr rfl

theorem add_room (rows : List Range) (row : Range) (room : rows.length < slots) :
    add rows row = some (rows ++ [row]) := by
  rw [add, if_pos room]

theorem cut_stable (c : Call) (row : Range) : ∀ piece ∈ (cut c row).rest, cut c piece = .keep := by
  intro piece member
  simp only [cut] at member ⊢
  split at member
  · exact absurd member not_mem_nil
  · obtain left | right := mem_append.mp member
    · split at left
      · cases mem_singleton.mp left
        exact if_pos (.inr (.inl (Nat.le_refl _)))
      · exact absurd left not_mem_nil
    · split at right
      · cases mem_singleton.mp right
        exact if_pos (.inr (.inr (Nat.le_refl _)))
      · exact absurd right not_mem_nil

theorem cut_rounds (c : Call) (rows : List Range) : rounds (cut c) rows < 3 * rows.length + 1 := by
  induction rows with
  | nil => exact Nat.zero_lt_one
  | cons row rows ih =>
    have two : (cut c row).rest.length ≤ 2 := by
      simp only [cut]
      split
      · exact Nat.zero_le 2
      · simp only [Verdict.rest, length_append]
        split <;> split <;> simp
    rw [rounds_cons, length_cons]
    omega

theorem forget_front {front : List Range} (stay : ∀ row ∈ front, cut c row = .keep) :
    ∃ out, forget (front ++ rows) c = some (front ++ out) ∧
      ∀ piece ∈ out, piece ∈ rows ∨ piece ∈ leftOf (cut c) rows := by
  simp only [forget]
  split
  · exact ⟨rows, rfl, fun piece here => .inl here⟩
  · have bound := cut_rounds c (front ++ rows)
    obtain ⟨roundsOf, -, -⟩ := kept_rows stay
    rw [rounds_append, roundsOf] at bound
    have enough : rounds (cut c) rows < 3 * (front ++ rows).length + 1 - front.length := by omega
    obtain ⟨out, ran, left⟩ := @sweep_lossy _ _ _ add_lossy (cut_stable c) _ front _ enough
    refine ⟨out, ?_, fun piece here => .inr (left piece here)⟩
    have skipped := @sweep_skip _ add (cut c) (3 * (front ++ rows).length + 1 - front.length) []
      front rows stay
    rw [Nat.add_sub_of_le (by rw [length_append]; omega)] at skipped
    exact skipped.trans ran

/-! ## What a call changes -/

theorem has_iff {as x : Nat} :
    has rows as x = true ↔ ∃ row ∈ rows, row.as = as ∧ row.start ≤ x ∧ x < row.stop := by
  simp [has]

theorem cut_covers (row : Range) (as x : Nat) (real : c.len ≠ 0) :
    (∃ piece ∈ (cut c row).pieces row, piece.as = as ∧ piece.start ≤ x ∧ x < piece.stop) ↔
      (row.as = as ∧ row.start ≤ x ∧ x < row.stop) ∧ c.covers as x = false := by
  simp only [cut, Call.covers, decide_eq_false_iff_not]
  split
  · next away =>
    simp only [Verdict.pieces, mem_singleton, exists_eq_left]
    constructor
    · intro here
      refine ⟨here, ?_⟩
      omega
    · exact And.left
  · next near =>
    simp only [Verdict.pieces]
    constructor
    · rintro ⟨piece, member, here⟩
      obtain left | right := mem_append.mp member
      · split at left
        · cases mem_singleton.mp left
          simp only at here
          omega
        · exact absurd left not_mem_nil
      · split at right
        · cases mem_singleton.mp right
          simp only at here
          omega
        · exact absurd right not_mem_nil
    · rintro ⟨here, outside⟩
      by_cases below : x < c.lo
      · refine ⟨⟨c.as, row.start, c.lo⟩, mem_append_left _ ?_, ?_⟩
        · rw [if_pos (by omega)]
          exact mem_singleton_self _
        · simp only
          omega
      · refine ⟨⟨c.as, c.hi, row.stop⟩, mem_append_right _ ?_, ?_⟩
        · rw [if_pos (by omega)]
          exact mem_singleton_self _
        · simp only
          omega

theorem Call.covers_eq (fits : c.Fits) (as x : Nat) : c.covers as x = c.touches as x := by
  have whole : (c.addr + c.len + 4095) % 2 ^ 64 = c.addr + c.len + 4095 := Nat.mod_eq_of_lt fits
  simp only [Call.covers, Call.touches, Call.lo, Call.hi, pageDown, pageUp, whole, decide_eq_decide]
  omega

/-! ## With room -/

def divided (c : Call) (row : Range) : Bool :=
  row.as = c.as ∧ row.start < c.lo ∧ c.hi < row.stop

/-- A call has room: a note is of a range that is there or finds a free entry, and a forgetting
finds one for every row it divides. -/
def Roomy (rows : List Range) (c : Call) : Prop :=
  if c.note then ⟨c.as, c.lo, c.hi⟩ ∈ rows ∨ rows.length < slots
  else rows.length + rows.countP (divided c) ≤ slots

instance (rows : List Range) (c : Call) : Decidable (Roomy rows c) :=
  inferInstanceAs (Decidable (if c.note then (⟨c.as, c.lo, c.hi⟩ : Range) ∈ rows ∨
    rows.length < slots else rows.length + rows.countP (divided c) ≤ slots))

theorem cut_growth (c : Call) (rows : List Range) :
    growth (cut c) rows ≤ rows.countP (divided c) := by
  refine growth_le_countP rows fun row _ => ?_
  simp only [cut, divided, decide_eq_true_eq]
  split
  · exact Nat.zero_le _
  · next near =>
    simp only [Verdict.growth, length_append]
    split <;> split <;> simp only [length_cons, length_nil] <;> split <;> omega

theorem has_note (roomy : Roomy rows c) (noted : c.note = true) (as x : Nat) :
    has (note rows c) as x = (c.covers as x || has rows as x) := by
  rw [Roomy, if_pos noted] at roomy
  rw [Bool.eq_iff_iff, Bool.or_eq_true, has_iff, has_iff]
  simp only [note, Call.covers, decide_eq_true_eq]
  split
  · next none =>
    constructor
    · exact .inr
    · rintro (covers | old)
      · exact absurd none covers.1
      · exact old
  · next real =>
    split
    · next there =>
      constructor
      · exact .inr
      · rintro (⟨-, same, low, high⟩ | old)
        · exact ⟨_, there, same, low, high⟩
        · exact old
    · next absent =>
      rw [if_pos (roomy.resolve_left absent)]
      simp only [mem_append, mem_singleton]
      constructor
      · rintro ⟨row, old | rfl, here⟩
        · exact .inr ⟨row, old, here⟩
        · exact .inl ⟨real, here⟩
      · rintro (⟨-, here⟩ | ⟨row, old, here⟩)
        · exact ⟨_, .inr rfl, here⟩
        · exact ⟨row, .inl old, here⟩

theorem has_forget (roomy : Roomy rows c) (forgets : c.note = false) :
    ∃ after, forget rows c = some after ∧
      ∀ as x, has after as x = (has rows as x && !c.covers as x) := by
  rw [Roomy, if_neg (by rw [forgets]; exact Bool.false_ne_true)] at roomy
  simp only [forget]
  split
  · next none =>
    refine ⟨rows, rfl, fun as x => ?_⟩
    simp [Call.covers, none]
  · next real =>
    have fits : rows.length + growth (cut c) rows ≤ slots := by
      have growth := cut_growth c rows
      omega
    obtain ⟨after, ran, left⟩ := @sweep_spec _ _ _ _ add_room (cut_stable c) _ [] rows
      (fun _ here => absurd here not_mem_nil) (cut_rounds c rows) fits
    refine ⟨after, ran, fun as x => ?_⟩
    rw [Bool.eq_iff_iff, Bool.and_eq_true, Bool.not_eq_true', has_iff, has_iff]
    constructor
    · rintro ⟨piece, member, here⟩
      obtain ⟨row, old, part⟩ := mem_flatMap.mp (left.mem_iff.mp member)
      obtain ⟨covered, outside⟩ := (cut_covers row as x real).mp ⟨piece, part, here⟩
      exact ⟨⟨row, old, covered⟩, outside⟩
    · rintro ⟨⟨row, old, covered⟩, outside⟩
      obtain ⟨piece, part, here⟩ := (cut_covers row as x real).mpr ⟨covered, outside⟩
      exact ⟨piece, left.mem_iff.mpr (mem_flatMap.mpr ⟨row, old, part⟩), here⟩

theorem has_apply (fits : c.Fits) (roomy : Roomy rows c) :
    ∃ after, apply rows c = some after ∧
      ∀ as x, has after as x = if c.touches as x then c.note else has rows as x := by
  simp only [apply]
  split
  · next noted =>
    refine ⟨note rows c, rfl, fun as x => ?_⟩
    rw [has_note roomy noted, c.covers_eq fits, noted]
    cases c.touches as x <;> rfl
  · next forgets =>
    have forgets : c.note = false := by simpa using forgets
    obtain ⟨after, ran, exact_⟩ := has_forget roomy forgets
    refine ⟨after, ran, fun as x => ?_⟩
    rw [exact_, c.covers_eq fits, forgets]
    cases c.touches as x
    · exact Bool.and_true _
    · exact Bool.and_false _

/-! ## Every sequence of calls -/

structure Book where
  rows : List Range
  calls : List Call
  deriving DecidableEq, Repr

def Book.new : Book := ⟨[], []⟩

def Book.next (b : Book) (c : Call) : Option Book :=
  (apply b.rows c).map fun rows => ⟨rows, c :: b.calls⟩

def noted (calls : List Call) (as x : Nat) : Bool :=
  (calls.find? (·.touches as x)).any (·.note)

def Book.Served (b : Book) (c : Call) : Prop := c.Fits ∧ Roomy b.rows c

instance (b : Book) (c : Call) : Decidable (b.Served c) := inferInstanceAs (Decidable (_ ∧ _))

/-- The table is what its calls describe. -/
structure Book.Exact (b : Book) : Prop where
  /-- An address is in the table if the last call on it noted it. -/
  answers : ∀ as x, has b.rows as x = noted b.calls as x
  /-- A call returns, and changes no answer outside of its range or of another address space. -/
  others : ∀ c, b.Served c → ∃ after, b.next c = some after ∧
    ∀ as x, c.touches as x = false → has after.rows as x = has b.rows as x

/-- While there is room for what forgetting divides, the table holds what was noted last. -/
theorem shared_file_exact {b : Book}
    (run : Reach (Guarded Book.Served (Computed Book.next)) .new b) :
    b.Exact := by
  have keeps : ∀ (before : Book) (c : Call) (after : Book),
      (∀ as x, has before.rows as x = noted before.calls as x) →
      Guarded Book.Served (Computed Book.next) before c after →
      ∀ as x, has after.rows as x = noted after.calls as x := by
    rintro before c after answers ⟨⟨fits, roomy⟩, step⟩ as x
    obtain ⟨rows, ran, exact_⟩ := has_apply fits roomy
    obtain ⟨out, computed, rfl⟩ := Option.map_eq_some_iff.mp step
    cases ran.symm.trans computed
    simp only [exact_, noted, List.find?_cons]
    cases c.touches as x
    · exact answers as x
    · rfl
  have answers := Reach.invariant keeps (fun _ _ => rfl) run
  refine ⟨answers, fun c served => ?_⟩
  obtain ⟨rows, ran, exact_⟩ := has_apply served.1 served.2
  refine ⟨⟨rows, c :: b.calls⟩, by rw [Book.next, ran]; rfl, fun as x away => ?_⟩
  rw [exact_, if_neg (by rw [away]; exact Bool.false_ne_true)]

def forgetMiddle : List Call :=
  [⟨true, 1, 0x10000, 0x5000⟩, ⟨true, 2, 0x10000, 0x1000⟩, ⟨false, 1, 0x11800, 0x1000⟩]

/-- The middle of a range is forgotten. -/
theorem shared_file_exact_middle : ∃ b : Book, b.Exact ∧
    b.rows = [⟨2, 0x10000, 0x11000⟩, ⟨1, 0x10000, 0x11000⟩, ⟨1, 0x13000, 0x15000⟩] := by
  have ran : (exec (fun b c => if decide (Book.Served b c) then b.next c else none) Book.new
      forgetMiddle).any (fun b => decide (b.rows =
        [⟨2, 0x10000, 0x11000⟩, ⟨1, 0x10000, 0x11000⟩, ⟨1, 0x13000, 0x15000⟩])) = true := by
    decide
  obtain ⟨b, run, rows⟩ := exec_exhibits_guarded ran
  refine ⟨b, shared_file_exact (run.mono fun _ _ _ step => ⟨?_, step.2⟩), of_decide_eq_true rows⟩
  exact of_decide_eq_true step.1

/-! ## Without room -/

def notes (count : Nat) : List Call :=
  (List.range count).map fun k => ⟨true, 1, (k + 1) * 0x10000, 0x3000⟩

/-- A note of one range more than there are entries is lost, and so is the upper remainder when the
middle of a range is forgotten in a full table. -/
theorem full_table_loses :
    (∃ b : Book, Reach (Computed Book.next) .new b ∧
      b.calls.head? = some ⟨true, 1, 65 * 0x10000, 0x3000⟩ ∧ has b.rows 1 (65 * 0x10000) = false) ∧
    ∃ b : Book, Reach (Computed Book.next) .new b ∧
      b.calls.head? = some ⟨false, 1, 0x11000, 0x1000⟩ ∧
      noted b.calls 1 0x12000 = true ∧ has b.rows 1 0x12000 = false := by
  constructor
  · have ran : (exec Book.next Book.new (notes 65)).any (fun b => decide
        (b.calls.head? = some ⟨true, 1, 65 * 0x10000, 0x3000⟩ ∧
          has b.rows 1 (65 * 0x10000) = false)) = true := by
      decide +kernel
    obtain ⟨b, run, shape⟩ := exec_exhibits ran
    exact ⟨b, run, of_decide_eq_true shape⟩
  · have ran : (exec Book.next Book.new
        (notes 64 ++ [⟨false, 1, 0x11000, 0x1000⟩])).any (fun b => decide
        (b.calls.head? = some ⟨false, 1, 0x11000, 0x1000⟩ ∧ noted b.calls 1 0x12000 = true ∧
          has b.rows 1 0x12000 = false)) = true := by
      decide +kernel
    obtain ⟨b, run, shape⟩ := exec_exhibits ran
    exact ⟨b, run, of_decide_eq_true shape⟩

end Vmctx.SharedFile
