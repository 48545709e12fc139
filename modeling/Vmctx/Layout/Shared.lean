import Vmctx.System.Run
import Vmctx.Table.Ranges
/-!
# The executor's shared mappings

The executor records which ranges of an address space map an object shared, with the offset and the
protection, in a table that is rewritten in place: removal and protection divide rows, correct the
offset of the upper part, and append. What the table is for is a partial function from addresses to
an object, an offset and a protection. The rows of an address space do not overlap, which is why two
spare entries are enough for every change.
-/

namespace Vmctx.Layout

open Table Vmctx.System

def wordMax : Nat := 2 ^ 64 - 1

def int64Max : Nat := 2 ^ 63 - 1

/-- `struct shared_range`. -/
structure SharedRange where
  as : Nat
  st : Nat
  en : Nat
  off : Nat
  objectId : Nat
  prot : Nat
  deriving DecidableEq, Repr

namespace SharedRange

def content (row : SharedRange) (x : Nat) : Nat × Nat × Nat :=
  (row.objectId, row.off + (x - row.st), row.prot)

def narrow (row : SharedRange) (st en : Nat) : SharedRange :=
  { row with st, en, off := row.off + (st - row.st) }

def ranges : Ranges SharedRange (Nat × Nat × Nat) := ⟨as, st, en, content, narrow⟩

end SharedRange

/-- `shared_rr`, `shared_rn` and `shared_capacity`. -/
abbrev SharedLayout := Growing SharedRange

namespace SharedLayout

/-- `shared_layout_reserve`. -/
def reserve (l : SharedLayout) (need : Nat) (memory : Bool) : Except Halt SharedLayout :=
  Growing.reserve 48 l need memory

/-- `shared_layout_remove_locked`. -/
def remove (l : SharedLayout) (as st en : Nat) : Except Halt SharedLayout :=
  SharedRange.ranges.remove l as st en

/-- `shared_layout_forget`. -/
def forget (l : SharedLayout) (as st en : Nat) (memory : Bool) : Except Halt SharedLayout :=
  if en ≤ st then .ok l
  else (reserve l (l.rows.length + 2) memory).bind fun l => remove l as st en

/-- `shared_layout_note`. -/
def note (l : SharedLayout) (as st en off prot objectId : Nat) (memory : Bool) :
    Except Halt SharedLayout :=
  if objectId = 0 ∨ en ≤ st ∨ int64Max < off ∨ int64Max - off < en - st then .error .abort
  else (reserve l (l.rows.length + 2) memory).bind fun l =>
    (remove l as st en).bind fun l => l.put ⟨as, st, en, off, objectId, prot⟩

/-- `shared_layout_lookup`. -/
def lookup (l : SharedLayout) (as addr : Nat) : Option SharedRange :=
  l.rows.find? fun row => row.as = as ∧ row.st ≤ addr ∧ addr < row.en

/-- `shared_layout_inherit`. -/
def inherit (l : SharedLayout) (child parent : Nat) (memory : Bool) : Except Halt SharedLayout :=
  if child = parent then .ok l
  else
    (reserve l (l.rows.length + l.rows.countP (·.as = parent) + 2) memory).bind fun l =>
      (remove l child 0 wordMax).bind fun l =>
        l.copy (·.as = parent) fun row => { row with as := child }

/-- What `shared_layout_protect` does with a row: the part in the range replaces it, and the parts
outside are put at the end. -/
def recolour (as st en prot : Nat) (old : SharedRange) : Option (SharedRange × List SharedRange) :=
  if old.as ≠ as ∨ old.en ≤ st ∨ en ≤ old.st then none
  else
    let lo := max old.st st
    let hi := min old.en en
    some (⟨as, lo, hi, old.off + lo - old.st, old.objectId, prot⟩,
      (if old.st < lo then [{ old with en := lo }] else []) ++
        if hi < old.en then [{ old with st := hi, off := old.off + (hi - old.st) }] else [])

/-- `shared_layout_protect`. -/
def protect (l : SharedLayout) (as st en prot : Nat) (memory : Bool) : Except Halt SharedLayout :=
  if en ≤ st then .ok l
  else (reserve l (l.rows.length + 2) memory).bind fun l =>
    l.keep (pass (within l.capacity) (recolour as st en prot) l.rows.length 0 l.rows)

end SharedLayout

inductive SharedCall
  | note (as st en off : UInt64) (prot : UInt32) (objectId : UInt64)
  | forget (as st en : UInt64)
  | protect (as st en : UInt64) (prot : UInt32)
  | inherit (child parent : UInt64)
  deriving DecidableEq, Repr

/-- A call is made; whether there is memory, should it be needed, is given. -/
def SharedLayout.apply (l : SharedLayout) (call : SharedCall) (memory : Bool) :
    Except Halt SharedLayout :=
  match call with
  | .note as st en off prot objectId =>
    note l as.toNat st.toNat en.toNat off.toNat prot.toNat objectId.toNat memory
  | .forget as st en => forget l as.toNat st.toNat en.toNat memory
  | .protect as st en prot => protect l as.toNat st.toNat en.toNat prot.toNat memory
  | .inherit child parent => inherit l child.toNat parent.toNat memory

/-! ## What the table is for -/

abbrev SharedMap := Nat → Nat → Option (Nat × Nat × Nat)

namespace SharedMap

def note (m : SharedMap) (as st en off prot objectId : Nat) : SharedMap := fun a x =>
  if a = as ∧ st ≤ x ∧ x < en then some (objectId, off + (x - st), prot) else m a x

def forget (m : SharedMap) (as st en : Nat) : SharedMap := fun a x =>
  if a = as ∧ st ≤ x ∧ x < en then none else m a x

def protect (m : SharedMap) (as st en prot : Nat) : SharedMap := fun a x =>
  if a = as ∧ st ≤ x ∧ x < en then
    (m a x).map fun (object, offset, _) => (object, offset, prot)
  else m a x

def inherit (m : SharedMap) (child parent : Nat) : SharedMap := fun a x =>
  if a = child then m parent x else m a x

def apply (m : SharedMap) : SharedCall → SharedMap
  | .note as st en off prot objectId =>
    note m as.toNat st.toNat en.toNat off.toNat prot.toNat objectId.toNat
  | .forget as st en => forget m as.toNat st.toNat en.toNat
  | .protect as st en prot => protect m as.toNat st.toNat en.toNat prot.toNat
  | .inherit child parent => inherit m child.toNat parent.toNat

end SharedMap

/-- A row that is not empty, inside the address space and inside the object. -/
structure SharedRange.Sound (row : SharedRange) : Prop where
  /-- The range is not empty. -/
  nonempty : row.st < row.en
  /-- It ends within the address space. -/
  word : row.en ≤ wordMax
  /-- And its object range within an `off_t`. -/
  object : row.off + (row.en - row.st) ≤ int64Max

namespace SharedLayout

variable {l : SharedLayout} {m : SharedMap} {row : SharedRange} {as st en : Nat}

def Shows (l : SharedLayout) (m : SharedMap) : Prop :=
  SharedRange.ranges.Shows SharedRange.Sound l m

def Yields (result : Except Halt SharedLayout) (m : SharedMap) : Prop :=
  SharedRange.ranges.Yields SharedRange.Sound result m

theorem lawful : SharedRange.ranges.Lawful SharedRange.Sound where
  space _ _ _ := rfl
  first _ _ _ := rfl
  past _ _ _ := rfl
  content row s e x low above := by
    have low : row.st ≤ s := low
    have moved : row.off + (s - row.st) + (x - s) = row.off + (x - row.st) := by omega
    show (row.objectId, row.off + (s - row.st) + (x - s), row.prot) = _
    rw [moved]
    rfl
  nonempty _ sound := sound.nonempty
  part row s e sound low some high := by
    have low : row.st ≤ s := low
    have high : e ≤ row.en := high
    have object := sound.object
    refine ⟨some, Nat.le_trans high sound.word, ?_⟩
    show row.off + (s - row.st) + (e - s) ≤ int64Max
    omega

/-! ## The calls -/

theorem forget_yields (shows : Shows l m) (memory : Bool) :
    Yields (forget l as st en memory) (m.forget as st en) := by
  simp only [forget]
  split
  · have same : m.forget as st en = m := by
      funext a x
      exact if_neg (by omega)
    rw [same]
    exact shows
  · next order =>
    refine Ranges.Yields.reserved fun capacity room => ?_
    obtain ⟨rows, removed, -, -, after⟩ := lawful.remove_spec (shows.grow capacity) as
      (Nat.lt_of_not_le order) (Nat.le_of_succ_le room)
    rw [remove, removed]
    exact after

variable {prot : Nat}

theorem note_yields {off objectId : Nat} (shows : Shows l m) (word : en ≤ wordMax) (memory : Bool) :
    Yields (note l as st en off prot objectId memory) (m.note as st en off prot objectId) := by
  simp only [note]
  split
  · rfl
  · next legal =>
    refine Ranges.Yields.reserved fun capacity room => ?_
    obtain ⟨rows, removed, length, -, after⟩ := lawful.remove_spec (shows.grow capacity) as
      (by omega : st < en) (Nat.le_of_succ_le room)
    have sound : SharedRange.Sound ⟨as, st, en, off, objectId, prot⟩ :=
      ⟨by simp only; omega, word, by simp only; omega⟩
    have short : rows.length ≤ l.rows.length + 1 := length
    obtain ⟨put, final⟩ := after.put_spec sound (Nat.lt_of_le_of_lt short room) (by
      rintro a x ⟨mine, low, high⟩
      exact if_pos ⟨mine.symm, low, high⟩)
    rw [remove, removed]
    show Yields (Growing.put _ _) _
    rw [put]
    have same : m.note as st en off prot objectId = fun a x =>
        if SharedRange.ranges.Covers ⟨as, st, en, off, objectId, prot⟩ a x then
          some (SharedRange.content ⟨as, st, en, off, objectId, prot⟩ x)
        else if a = as ∧ st ≤ x ∧ x < en then none else m a x := by
      funext a x
      by_cases here : a = as ∧ st ≤ x ∧ x < en
      · rw [SharedMap.note, if_pos here, if_pos ⟨here.1.symm, here.2⟩]
        rfl
      · rw [SharedMap.note, if_neg here, if_neg fun covers => here ⟨covers.1.symm, covers.2⟩,
          if_neg here]
    rw [same]
    exact final

def middle (row : SharedRange) (as st en prot : Nat) : SharedRange :=
  ⟨as, max row.st st, min row.en en, row.off + max row.st st - row.st, row.objectId, prot⟩

theorem recolour_away (away : row.as ≠ as ∨ row.en ≤ st ∨ en ≤ row.st) :
    changed (recolour as st en prot) row = [row] := by
  rw [changed, recolour, if_pos away]
  rfl

theorem recolour_near (near : ¬(row.as ≠ as ∨ row.en ≤ st ∨ en ≤ row.st)) :
    changed (recolour as st en prot) row =
      [middle row as st en prot] ++ (SharedRange.ranges.lower row (max row.st st) ++
        SharedRange.ranges.upper row (min row.en en)) := by
  have whole : row.off + (row.st - row.st) = row.off := by omega
  simp only [changed, recolour, if_neg near, Ranges.lower, Ranges.upper, SharedRange.ranges,
    SharedRange.narrow, whole]
  rfl

theorem middle_value {a x : Nat} (near : ¬(row.as ≠ as ∨ row.en ≤ st ∨ en ≤ row.st)) :
    SharedRange.ranges.value (middle row as st en prot) (a, x) =
      if st ≤ x ∧ x < en then
        (SharedRange.ranges.value row (a, x)).map fun (object, offset, _) => (object, offset, prot)
      else none := by
  have covers : SharedRange.ranges.Covers (middle row as st en prot) a x ↔
      (st ≤ x ∧ x < en) ∧ SharedRange.ranges.Covers row a x := by
    simp only [Ranges.Covers, SharedRange.ranges, middle]
    omega
  by_cases here : SharedRange.ranges.Covers (middle row as st en prot) a x
  · obtain ⟨inside, old⟩ := covers.mp here
    have moved : row.off + max row.st st - row.st + (x - max row.st st) =
        row.off + (x - row.st) := by omega
    rw [if_pos inside, Ranges.value_some here, Ranges.value_some old]
    simp only [SharedRange.ranges, SharedRange.content, middle, moved, Option.map_some]
  · rw [Ranges.value_none here]
    by_cases inside : st ≤ x ∧ x < en
    · rw [if_pos inside, Ranges.value_none fun old => here (covers.mpr ⟨inside, old⟩)]
      rfl
    · rw [if_neg inside]

def recoloured (as st en prot : Nat) (k : Nat × Nat) (v : Option (Nat × Nat × Nat)) :
    Option (Nat × Nat × Nat) :=
  if k.1 = as ∧ st ≤ k.2 ∧ k.2 < en then v.map fun (object, offset, _) => (object, offset, prot)
  else v

theorem recolour_pieces (order : st < en) (sound : row.Sound) :
    (∀ piece ∈ changed (recolour as st en prot) row, piece.Sound) ∧
    Apart SharedRange.ranges.value (changed (recolour as st en prot) row) ∧
    ∀ k, reads SharedRange.ranges.value (changed (recolour as st en prot) row) k =
      recoloured as st en prot k (SharedRange.ranges.value row k) := by
  obtain ⟨nonempty, word, object⟩ := id sound
  by_cases away : row.as ≠ as ∨ row.en ≤ st ∨ en ≤ row.st
  · rw [recolour_away away]
    refine ⟨?_, List.pairwise_singleton _ _, ?_⟩
    · intro piece member
      cases List.mem_singleton.mp member
      exact sound
    · rintro ⟨a, x⟩
      rw [reads_singleton, recoloured]
      split
      · next inside =>
        have silent : ¬SharedRange.ranges.Covers row a x := by
          simp only [Ranges.Covers, SharedRange.ranges] at inside ⊢
          omega
        rw [Ranges.value_none silent]
        rfl
      · rfl
  · obtain ⟨each, apart, said⟩ := lawful.parts_spec sound
      (show max row.st st ≤ row.en by omega) (show row.st ≤ min row.en en by omega)
      (show max row.st st ≤ min row.en en by omega)
    rw [recolour_near away]
    refine ⟨?_, ?_, ?_⟩
    · intro piece member
      obtain first | others := List.mem_append.mp member
      · cases List.mem_singleton.mp first
        exact ⟨by simp only [middle]; omega, by simp only [middle]; omega,
          by simp only [middle]; omega⟩
      · exact each piece others
    · refine @Apart.append _ _ _ _ _ _ (fun k => max row.st st ≤ k.2 ∧ k.2 < min row.en en)
        (fun k => ¬(max row.st st ≤ k.2 ∧ k.2 < min row.en en)) _ _
        (List.pairwise_singleton _ _) apart ?_ ?_ ?_
      · rintro ⟨a, x⟩ outside
        rw [reads_singleton]
        exact Ranges.value_none fun here => outside here.2
      · intro k inside
        rw [said, if_pos (not_not.mp inside)]
      · intro k both
        exact both.2 both.1
    · rintro ⟨a, x⟩
      rw [reads_append, reads_singleton, said, middle_value away, recoloured]
      by_cases here : SharedRange.ranges.Covers row a x
      · have covers : row.as = a ∧ row.st ≤ x ∧ x < row.en := here
        rw [Ranges.value_some here]
        by_cases inside : st ≤ x ∧ x < en
        · rw [if_pos inside, if_pos (show a = as ∧ st ≤ x ∧ x < en by omega)]
          rfl
        · rw [if_neg inside, if_neg (show ¬(max row.st st ≤ x ∧ x < min row.en en) by omega),
            if_neg fun same => inside same.2]
          rfl
      · rw [Ranges.value_none here]
        simp

theorem recolour_length (row : SharedRange) :
    (changed (recolour as st en prot) row).length ≤
      1 + (if (SharedRange.ranges.value row (as, st)).isSome then 1 else 0) +
        if (SharedRange.ranges.value row (as, en)).isSome then 1 else 0 := by
  by_cases away : row.as ≠ as ∨ row.en ≤ st ∨ en ≤ row.st
  · rw [recolour_away away, List.length_singleton]
    omega
  · have mine : row.as = as := by omega
    have below : (SharedRange.ranges.lower row (max row.st st)).length ≤
        if (SharedRange.ranges.value row (as, st)).isSome then 1 else 0 := by
      by_cases inside : row.st ≤ st
      · rw [Nat.max_eq_right inside]
        exact Ranges.lower_count (show st < row.en by omega) mine
      · have none : SharedRange.ranges.lower row row.st = [] := if_neg (Nat.lt_irrefl row.st)
        rw [Nat.max_eq_left (by omega), none]
        exact Nat.zero_le _
    have above : (SharedRange.ranges.upper row (min row.en en)).length ≤
        if (SharedRange.ranges.value row (as, en)).isSome then 1 else 0 := by
      by_cases inside : en ≤ row.en
      · rw [Nat.min_eq_right inside]
        exact Ranges.upper_count (show row.st ≤ en by omega) mine
      · have none : SharedRange.ranges.upper row row.en = [] := if_neg (Nat.lt_irrefl row.en)
        rw [Nat.min_eq_left (by omega), none]
        exact Nat.zero_le _
    rw [recolour_near away]
    simp only [List.length_append, List.length_singleton]
    omega

theorem protect_yields (shows : Shows l m) (memory : Bool) :
    Yields (protect l as st en prot memory) (m.protect as st en prot) := by
  simp only [protect]
  split
  · have same : m.protect as st en prot = m := by
      funext a x
      exact if_neg (by omega)
    rw [same]
    exact shows
  · next order =>
    have order : st < en := Nat.lt_of_not_le order
    refine Ranges.Yields.reserved fun capacity room => ?_
    have first := shows.apart.count_le (as, st)
    have second := shows.apart.count_le (as, en)
    have length := length_flatMap_le l.rows fun row _ => @recolour_length as st en prot row
    obtain ⟨rows, ran, rewritten⟩ := @pass_rewrites _ _ _ SharedRange.ranges.value l.rows capacity
      (recoloured as st en prot) (recolour as st en prot) shows.apart
      (fun k => by rw [recoloured]; exact ite_self none)
      (fun row here => (recolour_pieces order (shows.sound row here)).2.1)
      (fun row here => (recolour_pieces order (shows.sound row here)).2.2) (by omega)
    rw [ran]
    refine ⟨?_, rewritten.apart, ?_⟩
    · intro piece member
      obtain ⟨row, old, part⟩ := rewritten.source member
      exact (recolour_pieces order (shows.sound row old)).1 piece part
    · intro a x
      rw [rewritten.reads, shows.reads]
      rfl

theorem copies (child : Nat) : SharedRange.ranges.Copies SharedRange.Sound child
    (fun row => { row with as := child }) id where
  space _ := rfl
  range _ := ⟨rfl, rfl⟩
  content _ _ := rfl
  sound _ sound := ⟨sound.nonempty, sound.word, sound.object⟩

theorem inherit_yields {child parent : Nat} (shows : Shows l m) (memory : Bool) :
    Yields (inherit l child parent memory) (m.inherit child parent) := by
  simp only [inherit]
  split
  · next same =>
    have unchanged : m.inherit child parent = m := by
      funext a x
      simp only [SharedMap.inherit]
      split
      · next mine => rw [mine, same]
      · rfl
    rw [unchanged]
    exact shows
  · next different =>
    refine Ranges.Yields.reserved fun capacity room => ?_
    obtain ⟨rows, removed, length, count, after⟩ := lawful.remove_spec (shows.grow capacity) child
      (show 0 < wordMax by decide) (show l.rows.length + 1 ≤ capacity by omega)
    have short : rows.length ≤ l.rows.length + 1 := length
    have same : rows.countP (·.as = parent) = l.rows.countP (·.as = parent) :=
      count parent different
    have emptied (x : Nat) := after.emptied (fun row sound => sound.word) x
    have absent (x : Nat) : (if child = child ∧ 0 ≤ x ∧ x < wordMax then none else m child x) =
        none := by rw [← after.reads, emptied]
    rw [remove, removed]
    show Yields (Growing.copy { l with rows, capacity } _ _) _
    rw [Growing.copy_room _ (show rows.length + rows.countP (·.as = parent) ≤ capacity by omega)]
    have final := (copies child).shows different after absent
    have inherited : (fun a x => if a = child then
          (if parent = child ∧ 0 ≤ x ∧ x < wordMax then none else m parent x).map id
        else if a = child ∧ 0 ≤ x ∧ x < wordMax then none else m a x) = m.inherit child parent := by
      funext a x
      by_cases mine : a = child
      · rw [if_pos mine, if_neg fun other => different other.1.symm, Option.map_id,
          SharedMap.inherit, if_pos mine]
        rfl
      · rw [if_neg mine, if_neg fun other => mine other.1, SharedMap.inherit, if_neg mine]
    rw [inherited] at final
    exact final

theorem apply_yields (shows : Shows l m) (call : SharedCall) (memory : Bool) :
    Yields (apply l call memory) (m.apply call) := by
  cases call with
  | note as st en off prot objectId =>
    exact note_yields shows (Nat.le_pred_of_lt en.toNat_lt) memory
  | forget as st en => exact forget_yields shows memory
  | protect as st en prot => exact protect_yields shows memory
  | inherit child parent => exact inherit_yields shows memory

end SharedLayout

/-! ## Every sequence of calls -/

structure SharedBook where
  layout : SharedLayout
  calls : List SharedCall
  deriving DecidableEq, Repr

namespace SharedBook

def new : SharedBook := ⟨.new, []⟩

def map (b : SharedBook) : SharedMap :=
  b.calls.foldr (fun call m => m.apply call) fun _ _ => none

def next (b : SharedBook) (event : SharedCall × Bool) : Option SharedBook :=
  match b.layout.apply event.1 event.2 with
  | .error _ => none
  | .ok layout => some ⟨layout, event.1 :: b.calls⟩

/-- The table of shared mappings is the map that the calls describe. -/
structure Exact (b : SharedBook) : Prop where
  /-- Rows of an address space do not overlap. -/
  disjoint : b.layout.rows.Pairwise fun row other =>
    row.as = other.as → row.en ≤ other.st ∨ other.en ≤ row.st
  /-- Each of them is a range. -/
  sound : ∀ row ∈ b.layout.rows, row.Sound
  /-- No call writes past the array. -/
  inside : ∀ call memory, b.layout.apply call memory ≠ .error .overrun
  /-- A lookup finds a row that covers the address. -/
  covers : ∀ as x row, b.layout.lookup as x = some row → row.as = as ∧ row.st ≤ x ∧ x < row.en
  /-- It finds one where the map has something, and it is what the map has. -/
  lookup : ∀ as x, (b.layout.lookup as x).map
    (fun row => (row.objectId, row.off + (x - row.st), row.prot)) = b.map as x

end SharedBook

/-- After every sequence of calls, a lookup finds what the calls say. -/
theorem shared_layout_exact {b : SharedBook}
    (run : Reach (Computed SharedBook.next) .new b) : b.Exact := by
  have keeps : ∀ (before : SharedBook) (event : SharedCall × Bool) (after : SharedBook),
      before.layout.Shows before.map → Computed SharedBook.next before event after →
      after.layout.Shows after.map := by
    intro before event after shows step
    have yields := SharedLayout.apply_yields shows event.1 event.2
    simp only [Computed, SharedBook.next] at step
    split at step
    · cases step
    · next layout returned =>
      cases step
      rw [returned] at yields
      exact yields
  have base : SharedBook.new.layout.Shows SharedBook.new.map := Ranges.Shows.new
  have shows := Reach.invariant keeps base run
  refine ⟨?_, shows.sound, ?_, ?_, ?_⟩
  · exact SharedLayout.lawful.disjoint shows.sound shows.apart
  · intro call memory
    exact (SharedLayout.apply_yields shows call memory).not_overrun
  · intro as x row found
    simpa using List.find?_some found
  · intro as x
    rw [← shows.reads as x, Ranges.reads_find]
    rfl

/-- A mapping is divided by a change of protection, inherited, and partly removed by the child. -/
def dividedCalls : List (SharedCall × Bool) :=
  [(.note 1 0x1000 0x9000 0x4000 3 7, true), (.protect 1 0x3000 0x5000 1, true),
    (.inherit 2 1, true), (.forget 2 0x4000 0x6000, true)]

/-- What the child of the divided mapping has. -/
theorem shared_layout_exact_divided : ∃ b : SharedBook, b.Exact ∧
    b.layout.lookup 2 0x7000 = some ⟨2, 0x6000, 0x9000, 0x9000, 7, 3⟩ ∧
    b.layout.lookup 2 0x4000 = none := by
  have ran : (exec SharedBook.next SharedBook.new dividedCalls).any (fun b => decide
      (b.layout.lookup 2 0x7000 = some ⟨2, 0x6000, 0x9000, 0x9000, 7, 3⟩ ∧
        b.layout.lookup 2 0x4000 = none)) = true := by
    decide
  obtain ⟨b, run, found⟩ := exec_exhibits ran
  exact ⟨b, shared_layout_exact run, of_decide_eq_true found⟩

end Vmctx.Layout
