import Vmctx.Layout.Shared
/-!
# The executor's access layout

The rights of ranges and the guards on them are recorded in a table of their own, each with the
sequence of the event that set it. What the table is for is a partial function from addresses to
rights. A lookup answers with the row that covers an address or with the gap up to the next row, so
that a range is walked by asking again from where the answer ends.
-/

namespace Vmctx.Layout

open Table Vmctx.System List

/-- `struct access_range`. -/
structure AccessRange where
  as : Nat
  start : Nat
  past : Nat
  sequence : Nat
  protection : Nat
  denied : Nat
  deriving DecidableEq, Repr

structure Access where
  sequence : Nat
  protection : Nat
  denied : Nat
  deriving DecidableEq, Repr

namespace AccessRange

def access (row : AccessRange) : Access := ⟨row.sequence, row.protection, row.denied⟩

def ranges : Ranges AccessRange Access :=
  ⟨as, start, past, fun row _ => row.access, fun row start past => { row with start, past }⟩

end AccessRange

/-- `access_ranges`, `access_count` and `access_capacity`. -/
abbrev AccessLayout := Growing AccessRange

namespace AccessLayout

/-- `access_reserve`. -/
def reserve (l : AccessLayout) (count : Nat) (memory : Bool) : Except Halt AccessLayout :=
  Growing.reserve 40 l count memory

/-- `access_remove_locked`. -/
def remove (l : AccessLayout) (as start past : Nat) (memory : Bool) : Except Halt AccessLayout :=
  (reserve l (l.rows.length + 1) memory).bind fun l => AccessRange.ranges.remove l as start past

/-- `access_forget`. -/
def forget (l : AccessLayout) (as : Nat) (memory : Bool) : Except Halt AccessLayout :=
  remove l as 0 wordMax memory

/-- `access_note`. -/
def note (l : AccessLayout) (r : AccessRange) (memory more : Bool) : Except Halt AccessLayout :=
  (reserve l (l.rows.length + 2) memory).bind fun l =>
    (remove l r.as r.start r.past more).bind fun l => l.put r

/-- `access_inherit`: the child has the parent's rows, as of no event. -/
def inherit (l : AccessLayout) (child parent : Nat) (memory more : Bool) :
    Except Halt AccessLayout :=
  if child = parent then .ok l
  else
    (remove l child 0 wordMax memory).bind fun l =>
      (reserve l (l.rows.length * 2 + 1) more).bind fun l =>
        l.copy (·.as = parent) fun row => { row with as := child, sequence := 0 }

/-- The loop of `access_lookup`: whether a row was found, and `*out`. -/
def lookupFrom (as addr : Nat) : List AccessRange → Nat → Bool × AccessRange
  | [], past => (false, ⟨as, addr, past, 0, 0, 0⟩)
  | r :: rows, past =>
    if r.as ≠ as ∨ r.past ≤ addr then lookupFrom as addr rows past
    else if r.start ≤ addr then (true, r)
    else lookupFrom as addr rows (if r.start < past then r.start else past)

/-- `access_lookup`. -/
def lookup (l : AccessLayout) (as addr past : Nat) : Bool × AccessRange :=
  lookupFrom as addr l.rows past

/-- The parts of a range that the lookups of `access_apply_span` find, each one from where the last
answer ends; none where the rounds are exhausted. -/
def walk (l : AccessLayout) (as past : Nat) : (rounds start : Nat) → Option (List (Nat × Nat))
  | 0, start => if start < past then none else some []
  | rounds + 1, start =>
    if start < past then
      let next := min (lookup l as start past).2.past past
      if next ≤ start then none else (walk l as past rounds next).map ((start, next) :: ·)
    else some []

end AccessLayout

/-- A call, with arguments of the source's types. A note is of a range that is not empty. -/
inductive AccessCall
  | note (as start past sequence : UInt64) (protection denied : UInt32) (some : start < past)
  | forget (as : UInt64)
  | inherit (child parent : UInt64)
  deriving DecidableEq

/-- A call is made; whether there is memory for its reservations, should it be needed, is given. -/
def AccessLayout.apply (l : AccessLayout) (call : AccessCall) (memory more : Bool) :
    Except Halt AccessLayout :=
  match call with
  | .note as start past sequence protection denied _ =>
    note l ⟨as.toNat, start.toNat, past.toNat, sequence.toNat, protection.toNat, denied.toNat⟩
      memory more
  | .forget as => forget l as.toNat memory
  | .inherit child parent => inherit l child.toNat parent.toNat memory more

/-! ## What the table is for -/

abbrev AccessMap := Nat → Nat → Option Access

namespace AccessMap

def note (m : AccessMap) (r : AccessRange) : AccessMap := fun a x =>
  if a = r.as ∧ r.start ≤ x ∧ x < r.past then some r.access else m a x

def forget (m : AccessMap) (as : Nat) : AccessMap := fun a x => if a = as then none else m a x

def inherit (m : AccessMap) (child parent : Nat) : AccessMap := fun a x =>
  if a = child ∧ child ≠ parent then (m parent x).map ({ · with sequence := 0 }) else m a x

def apply (m : AccessMap) : AccessCall → AccessMap
  | .note as start past sequence protection denied _ =>
    note m ⟨as.toNat, start.toNat, past.toNat, sequence.toNat, protection.toNat, denied.toNat⟩
  | .forget as => forget m as.toNat
  | .inherit child parent => inherit m child.toNat parent.toNat

end AccessMap

/-- A row is a range of addresses. -/
structure AccessRange.Sound (row : AccessRange) : Prop where
  /-- It is not empty. -/
  nonempty : row.start < row.past
  /-- It ends within the address space. -/
  word : row.past ≤ wordMax

namespace AccessLayout

variable {l : AccessLayout} {m : AccessMap} {as addr : Nat}

def Shows (l : AccessLayout) (m : AccessMap) : Prop :=
  AccessRange.ranges.Shows AccessRange.Sound l m

def Yields (result : Except Halt AccessLayout) (m : AccessMap) : Prop :=
  AccessRange.ranges.Yields AccessRange.Sound result m

theorem lawful : AccessRange.ranges.Lawful AccessRange.Sound where
  space _ _ _ := rfl
  first _ _ _ := rfl
  past _ _ _ := rfl
  content _ _ _ _ _ _ := rfl
  nonempty _ sound := sound.nonempty
  part _ _ _ sound _ some high := ⟨some, Nat.le_trans high sound.word⟩

/-! ## The calls -/

variable {past start x : Nat} {row : AccessRange} {rows : List AccessRange}
  {answer : Bool × AccessRange}

theorem remove_cases (shows : Shows l m) (as : Nat) (order : start < past) (memory : Bool) :
    remove l as start past memory = .error .abort ∨
    ∃ rows capacity, remove l as start past memory = .ok { rows, capacity } ∧
      rows.length ≤ l.rows.length + 1 ∧ (l.rows.length + 1 ≤ l.capacity → capacity = l.capacity) ∧
      Shows { rows, capacity } fun a x =>
        if a = as ∧ start ≤ x ∧ x < past then none else m a x := by
  by_cases enough : l.rows.length + 1 ≤ l.capacity
  · obtain ⟨rows, removed, length, -, after⟩ := lawful.remove_spec shows as order enough
    have stays : reserve l (l.rows.length + 1) memory = .ok l := by
      rw [reserve, Growing.reserve, Table.reserve, if_pos enough]
    refine .inr ⟨rows, l.capacity, ?_, length, fun _ => rfl, after⟩
    rw [remove, stays]
    exact removed
  · obtain aborts | ⟨capacity, room, reserved⟩ :=
      Growing.reserve_cases 40 l (l.rows.length + 1) memory
    · refine .inl ?_
      rw [remove, reserve, aborts]
      rfl
    · obtain ⟨rows, removed, length, -, after⟩ :=
        lawful.remove_spec (shows.grow capacity) as order room
      refine .inr ⟨rows, capacity, ?_, length, fun more => absurd more enough, after⟩
      rw [remove, reserve, reserved]
      exact removed

theorem removed_all
    (shows : Shows l fun a x => if a = as ∧ 0 ≤ x ∧ x < wordMax then none else m a x) :
    Shows l (m.forget as) := by
  refine ⟨shows.sound, shows.apart, fun a x => ?_⟩
  simp only [AccessMap.forget]
  split
  · next mine =>
    rw [mine]
    exact shows.emptied (fun _ sound => sound.word) x
  · next other =>
    rw [shows.reads, if_neg fun same => other same.1]

theorem forget_yields (shows : Shows l m) (memory : Bool) :
    Yields (forget l as memory) (m.forget as) := by
  obtain aborts | ⟨rows, capacity, removed, -, -, after⟩ :=
    remove_cases shows as (show 0 < wordMax by decide) memory
  · rw [forget, aborts]
    rfl
  · rw [forget, removed]
    exact removed_all after

theorem note_yields {r : AccessRange} (shows : Shows l m) (sound : r.Sound) (memory more : Bool) :
    Yields (note l r memory more) (m.note r) := by
  simp only [note]
  refine Ranges.Yields.reserved fun capacity room => ?_
  obtain aborts | ⟨rows, capacity, removed, length, same, after⟩ :=
    remove_cases (shows.grow capacity) r.as sound.nonempty more
  · rw [aborts]
    rfl
  · have short : rows.length ≤ l.rows.length + 1 := length
    have kept := same (Nat.le_of_succ_le room)
    subst kept
    obtain ⟨put, final⟩ := after.put_spec sound (Nat.lt_of_le_of_lt short room) (by
      rintro a x ⟨mine, low, high⟩
      exact if_pos ⟨mine.symm, low, high⟩)
    rw [removed]
    show Yields (Growing.put _ _) _
    rw [put]
    refine ⟨final.sound, final.apart, fun a x => ?_⟩
    refine (final.reads a x).trans ?_
    simp only [AccessMap.note]
    by_cases here : a = r.as ∧ r.start ≤ x ∧ x < r.past
    · have covers : AccessRange.ranges.Covers r a x := ⟨here.1.symm, here.2⟩
      rw [if_pos covers, if_pos here]
      rfl
    · have away : ¬AccessRange.ranges.Covers r a x := fun covers => here ⟨covers.1.symm, covers.2⟩
      rw [if_neg away, if_neg here, if_neg here]

theorem copies (child : Nat) : AccessRange.ranges.Copies AccessRange.Sound child
    (fun row => { row with as := child, sequence := 0 }) ({ · with sequence := 0 }) where
  space _ := rfl
  range _ := ⟨rfl, rfl⟩
  content _ _ := rfl
  sound _ sound := ⟨sound.nonempty, sound.word⟩

theorem inherit_yields {child parent : Nat} (shows : Shows l m) (memory more : Bool) :
    Yields (inherit l child parent memory more) (m.inherit child parent) := by
  simp only [inherit]
  split
  · next same =>
    refine ⟨shows.sound, shows.apart, fun a x => ?_⟩
    rw [AccessMap.inherit, if_neg fun other => other.2 same, shows.reads]
  · next different =>
    obtain aborts | ⟨rows, capacity, removed, -, -, after⟩ :=
      remove_cases shows child (show 0 < wordMax by decide) memory
    · rw [aborts]
      rfl
    · rw [removed]
      refine Ranges.Yields.reserved fun capacity room => ?_
      have after := (removed_all after).grow capacity
      have bound : rows.countP (fun row => decide (row.as = parent)) ≤ rows.length :=
        countP_le_length
      have room : rows.length + rows.countP (·.as = parent) ≤ capacity := by
        have room : rows.length * 2 + 1 ≤ capacity := room
        omega
      rw [Growing.copy_room _ room]
      have final := (copies child).shows different after fun x => if_pos rfl
      refine ⟨final.sound, final.apart, fun a x => ?_⟩
      refine (final.reads a x).trans ?_
      simp only [AccessMap.inherit, AccessMap.forget]
      by_cases mine : a = child
      · have inherits : a = child ∧ child ≠ parent := ⟨mine, different⟩
        rw [if_pos mine, if_pos inherits, if_neg (Ne.symm different)]
      · have other : ¬(a = child ∧ child ≠ parent) := fun same => mine same.1
        rw [if_neg mine, if_neg mine, if_neg other]

theorem apply_yields (shows : Shows l m) (call : AccessCall) (memory more : Bool) :
    Yields (apply l call memory more) (m.apply call) := by
  cases call with
  | note as start past sequence protection denied some =>
    exact note_yields shows ⟨UInt64.lt_iff_toNat_lt.mp some, Nat.le_pred_of_lt past.toNat_lt⟩
      memory more
  | forget as => exact forget_yields shows memory
  | inherit child parent => exact inherit_yields shows memory more

/-! ## Lookups -/

/-- A lookup of an address, in a range up to `past`, answers what the map has. -/
structure Answers (m : AccessMap) (as addr past : Nat) (answer : Bool × AccessRange) : Prop where
  /-- It finds a row where the map has an access. -/
  found : answer.1 = (m as addr).isSome
  /-- The row covers the address, and has that access. -/
  row : answer.1 = true → answer.2.as = as ∧ answer.2.start ≤ addr ∧ addr < answer.2.past ∧
    m as addr = some answer.2.access
  /-- So it is at every address up to the end of the row. -/
  same : answer.1 = true → ∀ x, addr ≤ x → x < answer.2.past → m as x = m as addr
  /-- Otherwise the answer is the gap from the address on, inside of the range. -/
  gap : answer.1 = false → answer.2.start = addr ∧ addr < answer.2.past ∧ answer.2.past ≤ past
  /-- At no address of the gap the map has an access. -/
  empty : answer.1 = false → ∀ x, addr ≤ x → x < answer.2.past → m as x = none
  /-- The gap is as long as the range allows. -/
  ends : answer.1 = false → answer.2.past < past → (m as answer.2.past).isSome

theorem covers_iff :
    AccessRange.ranges.Covers row as x ↔ row.as = as ∧ row.start ≤ x ∧ x < row.past := .rfl

theorem lookupFrom_found (as addr past : Nat)
    (first : rows.find? (fun row => decide (AccessRange.ranges.Covers row as addr)) = some row) :
    lookupFrom as addr rows past = (true, row) := by
  induction rows generalizing past with
  | nil => cases first
  | cons r rows ih =>
    simp only [lookupFrom]
    rw [List.find?_cons] at first
    by_cases here : AccessRange.ranges.Covers r as addr
    · rw [decide_eq_true here] at first
      cases first
      obtain ⟨mine, low, high⟩ := covers_iff.mp here
      rw [if_neg (by omega), if_pos low]
    · rw [decide_eq_false here] at first
      rw [covers_iff] at here
      split
      · exact ih past first
      · next near =>
        rw [if_neg (by omega)]
        exact ih _ first

theorem lookupFrom_gap {as addr : Nat} (past : Nat) (sound : ∀ row ∈ rows, row.Sound)
    (order : addr < past) (none : ∀ row ∈ rows, ¬AccessRange.ranges.Covers row as addr) :
    ∃ finish, lookupFrom as addr rows past = (false, ⟨as, addr, finish, 0, 0, 0⟩) ∧
      addr < finish ∧ finish ≤ past ∧
      (∀ row ∈ rows, ∀ x, addr ≤ x → x < finish → ¬AccessRange.ranges.Covers row as x) ∧
      (finish < past → ∃ row ∈ rows, AccessRange.ranges.Covers row as finish) := by
  induction rows generalizing past with
  | nil =>
    exact ⟨past, rfl, order, Nat.le_refl _, fun _ here => absurd here not_mem_nil,
      fun less => absurd less (Nat.lt_irrefl _)⟩
  | cons r rows ih =>
    obtain ⟨head, none⟩ := forall_mem_cons.mp none
    obtain ⟨nonempty, sound⟩ := forall_mem_cons.mp sound
    have nonempty := nonempty.nonempty
    simp only [covers_iff] at head
    simp only [lookupFrom]
    split
    · next away =>
      obtain ⟨finish, answer, low, high, empty, ends⟩ := ih past sound order none
      refine ⟨finish, answer, low, high, forall_mem_cons.mpr ⟨?_, empty⟩, fun less => ?_⟩
      · intro x above _ covers
        rw [covers_iff] at covers
        omega
      · obtain ⟨row, member, covers⟩ := ends less
        exact ⟨row, mem_cons_of_mem r member, covers⟩
    · next near =>
      have narrowed : (if r.start < past then r.start else past) = min r.start past := by
        split <;> omega
      rw [if_neg (by omega), narrowed]
      obtain ⟨finish, answer, low, high, empty, ends⟩ :=
        ih (min r.start past) sound (by omega) none
      refine ⟨finish, answer, low, by omega, forall_mem_cons.mpr ⟨?_, empty⟩, fun less => ?_⟩
      · intro x _ below covers
        rw [covers_iff] at covers
        omega
      · by_cases first : finish < min r.start past
        · obtain ⟨row, member, covers⟩ := ends first
          exact ⟨row, mem_cons_of_mem r member, covers⟩
        · -- the gap ends where this row starts
          refine ⟨r, mem_cons_self, covers_iff.mpr ?_⟩
          omega

theorem lookup_answers (shows : Shows l m) (as : Nat) (order : addr < past) :
    Answers m as addr past (lookup l as addr past) := by
  have said := (shows.reads as addr).symm.trans (Ranges.reads_find l.rows as addr)
  cases first : l.rows.find? (fun row => decide (AccessRange.ranges.Covers row as addr)) with
  | some row =>
    rw [first] at said
    have covers : AccessRange.ranges.Covers row as addr := by simpa using List.find?_some first
    have member := mem_of_find?_eq_some first
    rw [lookup, lookupFrom_found as addr past first]
    refine ⟨by rw [said]; rfl, fun _ => ⟨covers.1, covers.2.1, covers.2.2, said⟩, ?_, nofun, nofun,
      nofun⟩
    intro _ x above below
    have also : AccessRange.ranges.Covers row as x :=
      ⟨covers.1, Nat.le_trans covers.2.1 above, below⟩
    rw [said, ← shows.reads as x]
    exact shows.apart.reads_iff.mpr ⟨row, member, Ranges.value_some also⟩
  | none =>
    rw [first] at said
    have none (row : AccessRange) (member : row ∈ l.rows) :
        ¬AccessRange.ranges.Covers row as addr := by
      simpa using List.find?_eq_none.mp first row member
    obtain ⟨finish, answer, low, high, empty, ends⟩ :=
      lookupFrom_gap past shows.sound order none
    rw [lookup, answer]
    refine ⟨by rw [said]; rfl, nofun, nofun, fun _ => ⟨rfl, low, high⟩, ?_, ?_⟩
    · intro _ x above below
      rw [← shows.reads as x]
      refine List.findSome?_eq_none_iff.mpr fun row member => ?_
      exact Ranges.value_none (empty row member x above below)
    · intro _ less
      obtain ⟨row, member, covers⟩ := ends less
      have here := shows.apart.reads_iff.mpr ⟨row, member, Ranges.value_some covers⟩
      rw [← shows.reads as finish, here]
      rfl

theorem Answers.advances (answers : Answers m as addr past answer) : addr < answer.2.past := by
  cases kind : answer.1 with
  | true => exact (answers.row kind).2.2.1
  | false => exact (answers.gap kind).2.1

theorem Answers.even (answers : Answers m as addr past answer) (above : addr ≤ x)
    (below : x < answer.2.past) : m as x = m as addr := by
  cases kind : answer.1 with
  | true => exact answers.same kind x above below
  | false =>
    rw [answers.empty kind x above below,
      answers.empty kind addr (Nat.le_refl _) (answers.gap kind).2.1]

def Parts : List (Nat × Nat) → Nat → Nat → Prop
  | [], start, past => past ≤ start
  | (low, high) :: parts, start, past =>
    low = start ∧ low < high ∧ high ≤ past ∧ Parts parts high past

/-- Asking again from where the answer ends walks the range, each part of which is of one kind. -/
theorem walk_parts {rounds : Nat} (shows : Shows l m) (enough : past ≤ start + rounds) :
    ∃ parts, walk l as past rounds start = some parts ∧ Parts parts start past ∧
      ∀ part ∈ parts, ∀ x, part.1 ≤ x → x < part.2 → m as x = m as part.1 := by
  induction rounds generalizing start with
  | zero =>
    rw [walk, if_neg (by omega)]
    exact ⟨[], rfl, enough, fun _ here => absurd here not_mem_nil⟩
  | succ rounds ih =>
    rw [walk]
    split
    · next order =>
      have answers := lookup_answers shows as order
      have advances := answers.advances
      obtain ⟨parts, walked, consecutive, even⟩ :=
        @ih (min (lookup l as start past).2.past past) (by omega)
      rw [if_neg (by omega), walked]
      refine ⟨_, rfl, ⟨rfl, by omega, Nat.min_le_right _ _, consecutive⟩,
        forall_mem_cons.mpr ⟨?_, even⟩⟩
      intro x low high
      exact answers.even low (Nat.lt_of_lt_of_le high (Nat.min_le_left _ _))
    · next done =>
      exact ⟨[], rfl, Nat.le_of_not_lt done, fun _ here => absurd here not_mem_nil⟩

end AccessLayout

/-! ## Every sequence of calls -/

structure AccessBook where
  layout : AccessLayout
  calls : List AccessCall
  deriving DecidableEq

namespace AccessBook

def new : AccessBook := ⟨.new, []⟩

def map (b : AccessBook) : AccessMap :=
  b.calls.foldr (fun call m => m.apply call) fun _ _ => none

def next (b : AccessBook) (event : AccessCall × Bool × Bool) : Option AccessBook :=
  match b.layout.apply event.1 event.2.1 event.2.2 with
  | .error _ => none
  | .ok layout => some ⟨layout, event.1 :: b.calls⟩

/-- The table of accesses is the map that the calls describe. -/
structure Exact (b : AccessBook) : Prop where
  /-- Rows of an address space do not overlap. -/
  disjoint : b.layout.rows.Pairwise fun row other =>
    row.as = other.as → row.past ≤ other.start ∨ other.past ≤ row.start
  /-- No call writes past the array. -/
  inside : ∀ call memory more, b.layout.apply call memory more ≠ .error .overrun
  /-- Lookups answer what the map has. -/
  lookup : ∀ as addr past, addr < past →
    AccessLayout.Answers b.map as addr past (b.layout.lookup as addr past)
  /-- Lookups from where the last answer ends walk all of a range, in parts that do not overlap, in
  no more rounds than there are addresses; each part is of one kind. -/
  walk : ∀ as start past, ∃ parts, b.layout.walk as past (past - start) start = some parts ∧
    AccessLayout.Parts parts start past ∧
    ∀ part ∈ parts, ∀ x, part.1 ≤ x → x < part.2 → b.map as x = b.map as part.1

end AccessBook

/-- After every sequence of calls, lookups answer what the calls say. -/
theorem access_layout_exact {b : AccessBook}
    (run : Reach (Computed AccessBook.next) .new b) : b.Exact := by
  have keeps : ∀ (before : AccessBook) (event : AccessCall × Bool × Bool) (after : AccessBook),
      before.layout.Shows before.map → Computed AccessBook.next before event after →
      after.layout.Shows after.map := by
    intro before event after shows step
    have yields := AccessLayout.apply_yields shows event.1 event.2.1 event.2.2
    simp only [Computed, AccessBook.next] at step
    split at step
    · cases step
    · next layout returned =>
      cases step
      rw [returned] at yields
      exact yields
  have base : AccessBook.new.layout.Shows AccessBook.new.map := Ranges.Shows.new
  have shows := Reach.invariant keeps base run
  refine ⟨?_, ?_, ?_, ?_⟩
  · exact AccessLayout.lawful.disjoint shows.sound shows.apart
  · intro call memory more
    exact (AccessLayout.apply_yields shows call memory more).not_overrun
  · intro as addr past order
    exact AccessLayout.lookup_answers shows as order
  · intro as start past
    exact AccessLayout.walk_parts shows (by omega)

/-- A guard in the middle of a range, both inherited by another address space. -/
def guardedCalls : List (AccessCall × Bool × Bool) :=
  [(.note 1 0x1000 0x9000 5 3 0 (by decide), true, true),
    (.note 1 0x3000 0x4000 6 3 1 (by decide), true, true), (.inherit 2 1, true, true)]

/-- The child's lookups of the guard, and before the range. -/
theorem access_layout_exact_guarded : ∃ b : AccessBook, b.Exact ∧
    b.layout.lookup 2 0x3000 0xa000 = (true, ⟨2, 0x3000, 0x4000, 0, 3, 1⟩) ∧
    b.layout.lookup 2 0 0xa000 = (false, ⟨2, 0, 0x1000, 0, 0, 0⟩) := by
  have ran : (exec AccessBook.next AccessBook.new guardedCalls).any (fun b => decide
      (b.layout.lookup 2 0x3000 0xa000 = (true, ⟨2, 0x3000, 0x4000, 0, 3, 1⟩) ∧
        b.layout.lookup 2 0 0xa000 = (false, ⟨2, 0, 0x1000, 0, 0, 0⟩))) = true := by
    decide
  obtain ⟨b, run, found⟩ := exec_exhibits ran
  exact ⟨b, access_layout_exact run, of_decide_eq_true found⟩

end Vmctx.Layout
