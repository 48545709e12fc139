import Mathlib.Data.List.Range
import Vmctx.Machine
import Vmctx.Order.Spaced
import Vmctx.Table.Reserve
/-!
# Publication of a child's resident pages

A forked child is parked while the source lists the private pages it already has. The list travels
in batches of at most 256 pages. Each batch names the address where the next one starts, and zero
ends the list. The executor checks every batch before it keeps its pages.

The resident pages form a spaced list. A batch takes the first pages of what lies behind its cursor,
so the batches of a whole scan put the list together again. The executor trusts none of that: its
check alone bounds the number of batches and orders what it keeps.
-/

namespace Vmctx.ChildPages

open Vmctx.Order List

/-! The source. -/

def childPagesMax : Nat := 256

/-- `struct vmr_child_pages`. -/
structure Batch where
  next : Nat
  count : Nat
  reserved : Nat
  pages : Nat → Nat

def Batch.listed (b : Batch) : List Nat := (List.range b.count).map b.pages

def Batch.of (found : List Nat) (next : Nat) : Batch where
  next := next
  count := found.length
  reserved := 0
  pages i := found.getD i 0

/-- A line of the maps file. `isPrivate` is the fourth letter of its permissions. -/
structure MapLine where
  lo : Nat
  hi : Nat
  isPrivate : Bool

/-- What the native files and the page table answer during a scan. -/
structure Native where
  opened : Except Errno Unit
  sameMm : Bool
  /-- The lines of the maps file; `none` stands for a line that does not parse. -/
  lines : List (Option MapLine)
  ended : Bool
  readable : Nat → Bool
  present : Nat → Bool
  recorded : Nat → Bool

/-- How a part of the scan ends. `stuck` stands for a loop that has not ended within the fuel. -/
inductive Scan
  | more (found : List Nat)
  | full (found : List Nat) (next : Nat)
  | failed
  | stuck

def scanEntries (n : Native) : Nat → Nat → List Nat → Scan
  | 0, _, found => .more found
  | left + 1, address, found =>
    if n.present address then
      if n.recorded address then
        if (found ++ [address]).length = childPagesMax then
          .full (found ++ [address]) (address + 4096)
        else scanEntries n left (address + 4096) (found ++ [address])
      else .failed
    else scanEntries n left (address + 4096) found

def scanMapping (n : Native) (hi : Nat) : Nat → Nat → List Nat → Scan
  | 0, _, _ => .stuck
  | fuel + 1, address, found =>
    if address < hi then
      let count := min ((hi - address) / 4096) 256
      if n.readable address then
        match scanEntries n count address found with
        | .more found => scanMapping n hi fuel (address + 4096 * count) found
        | ended => ended
      else .failed
    else .more found

def scanLines (n : Native) (fuel cursor : Nat) : List (Option MapLine) → List Nat → Scan
  | [], found => .more found
  | none :: _, _ => .failed
  | some line :: rest, found =>
    if line.isPrivate = false ∨ line.hi ≤ cursor ∨ 2 ^ 63 ≤ line.hi then
      scanLines n fuel cursor rest found
    else
      match scanMapping n line.hi fuel (if line.lo < cursor then cursor else line.lo) found with
      | .more found => scanLines n fuel cursor rest found
      | ended => ended

/-- `source_child_pages`: one batch from the cursor on. -/
def sourceChildPages (n : Native) (fuel cursor : Nat) : Option (Except Errno Batch) :=
  if cursor % 4096 ≠ 0 then some (.error .EINVAL)
  else
    match n.opened with
    | .error e => some (.error e)
    | .ok () =>
      if n.sameMm = false then some (.error .ESTALE)
      else
        match scanLines n fuel cursor n.lines [] with
        | .more found => some (if n.ended then .ok (Batch.of found 0) else .error .EIOerr)
        | .full found next => some (.ok (Batch.of found next))
        | .failed => some (.error .EIOerr)
        | .stuck => none

def publish (n : Native) (fuel : Nat) : Nat → Nat → Option (List (Nat × Batch))
  | 0, _ => none
  | rounds + 1, cursor =>
    match sourceChildPages n fuel cursor with
    | some (.ok b) =>
      if b.next = 0 then some [(cursor, b)]
      else (publish n fuel rounds b.next).map ((cursor, b) :: ·)
    | _ => none

/-! The executor. -/

/-- The loop of `child_pages_valid` over the counted pages. It returns the end of the last one. -/
def checkPages : List Nat → Nat → Option Nat
  | [], previous => some previous
  | p :: rest, previous =>
    if p % 4096 ≠ 0 ∨ 2 ^ 63 ≤ p ∨ p < previous then none else checkPages rest (p + 4096)

/-- `child_pages_valid`. -/
def childPagesValid (b : Batch) (cursor : Nat) : Bool :=
  if childPagesMax < b.count ∨ b.reserved ≠ 0 ∨ cursor % 4096 ≠ 0 then false
  else
    match checkPages b.listed cursor with
    | none => false
    | some previous =>
      if b.next ≠ 0 ∧ (b.next % 4096 ≠ 0 ∨ b.next ≤ cursor ∨ b.next < previous ∨ 2 ^ 63 ≤ b.next)
      then false
      else (List.range' b.count (childPagesMax - b.count)).all fun i => b.pages i = 0

/-- What answers the executor: in each round a batch, or `none` for a call that failed, and whether
the list could be enlarged. -/
structure Peer where
  reply : Nat → Nat → Option Batch
  grows : Nat → Bool

inductive Round
  | done (succeeded : Bool) (out : List Nat)
  | again (cursor : Nat) (out : List Nat)

def readRound (peer : Peer) (round cursor : Nat) (out : List Nat) : Round :=
  match peer.reply round cursor with
  | none => .done false out
  | some b =>
    if childPagesValid b cursor = false then .done false out
    else if b.count ≠ 0 ∧
        (Table.sizeMax / 8 - b.count < out.length ∨ peer.grows round = false) then .done false out
    else if b.next = 0 then .done true (out ++ b.listed)
    else .again b.next (out ++ b.listed)

/-- `child_source_pages_read`: whether it succeeded and the pages it kept. `none` when the loop has
not ended within the fuel. -/
def childSourcePagesRead (peer : Peer) : Nat → Nat → Nat → List Nat → Option (Bool × List Nat)
  | 0, _, _, _ => none
  | fuel + 1, round, cursor, out =>
    match readRound peer round cursor out with
    | .done succeeded out => some (succeeded, out)
    | .again cursor out => childSourcePagesRead peer fuel (round + 1) cursor out

def Native.peer (n : Native) (fuel : Nat) : Peer where
  reply _ cursor :=
    match sourceChildPages n fuel cursor with
    | some (.ok b) => some b
    | _ => none
  grows _ := true

/-! Collecting pages until a batch is full. -/

def gather : List Nat → List Nat → Scan
  | [], found => .more found
  | p :: rest, found =>
    if (found ++ [p]).length = childPagesMax then .full (found ++ [p]) (p + 4096)
    else gather rest (found ++ [p])

theorem gather_append (first second found : List Nat) :
    gather (first ++ second) found =
      match gather first found with
      | .more found => gather second found
      | ended => ended := by
  induction first generalizing found with
  | nil => rfl
  | cons p rest ih =>
    rw [cons_append, gather, gather]
    split
    · rfl
    · exact ih _

theorem gather_cases (fresh found : List Nat) (room : found.length < childPagesMax) :
    (found.length + fresh.length < childPagesMax ∧ gather fresh found = .more (found ++ fresh)) ∨
      ∃ front last back, fresh = front ++ last :: back ∧
        found.length + front.length + 1 = childPagesMax ∧
        gather fresh found = .full (found ++ front ++ [last]) (last + 4096) := by
  induction fresh generalizing found with
  | nil => exact .inl ⟨room, by rw [gather, append_nil]⟩
  | cons p rest ih =>
    have grown : (found ++ [p]).length = found.length + 1 := by simp
    rw [gather]
    by_cases filled : (found ++ [p]).length = childPagesMax
    · rw [if_pos filled]
      right
      refine ⟨[], p, rest, rfl, ?_, by rw [append_nil]⟩
      rw [length_nil]
      omega
    · rw [if_neg filled]
      obtain ⟨short, ran⟩ | ⟨front, last, back, split_, length, ran⟩ :=
        ih (found ++ [p]) (by omega)
      · left
        refine ⟨?_, by rw [ran, append_assoc, singleton_append]⟩
        rw [length_cons]
        omega
      · right
        refine ⟨p :: front, last, back, by rw [split_, cons_append], ?_, ?_⟩
        · rw [length_cons]
          omega
        · rw [ran, append_assoc found, singleton_append]

section
variable {n : Native}

theorem scanEntries_eq (recorded : ∀ p, n.recorded p = true) (left address : Nat)
    (found : List Nat) :
    scanEntries n left address found =
      gather ((List.range' address left 4096).filter n.present) found := by
  induction left generalizing address found with
  | zero => rfl
  | succ left ih =>
    rw [scanEntries, List.range'_succ, filter_cons]
    split
    · rw [if_pos (recorded address), gather]
      split
      · rfl
      · exact ih _ _
    · exact ih _ _

theorem scanMapping_eq (recorded : ∀ p, n.recorded p = true) (readable : ∀ p, n.readable p = true)
    {hi fuel address count : Nat} (found : List Nat) (extent : address + 4096 * count = hi)
    (enough : count < fuel) :
    scanMapping n hi fuel address found =
      gather ((List.range' address count 4096).filter n.present) found := by
  induction fuel generalizing address count found with
  | zero => omega
  | succ fuel ih =>
    rw [scanMapping]
    by_cases inside : address < hi
    · have pages : (hi - address) / 4096 = count := by omega
      have parts : count = min count 256 + (count - min count 256) := by omega
      have split_ : List.range' address count 4096 =
          List.range' address (min count 256) 4096 ++
            List.range' (address + 4096 * min count 256) (count - min count 256) 4096 := by
        rw [List.range'_append, ← parts]
      rw [if_pos inside, if_pos (readable address), pages, scanEntries_eq recorded, split_,
        filter_append, gather_append]
      cases gather ((List.range' address (min count 256) 4096).filter n.present) found with
      | more found => exact ih found (by omega) (by omega)
      | full found next | failed | stuck => rfl
    · have empty : count = 0 := by omega
      rw [if_neg inside, empty]
      rfl

end

/-! A parked child. -/

/-- A child whose mappings are listed as the kernel does, and whose page presence is fixed. -/
structure Child where
  lines : List MapLine
  present : Nat → Bool
  aligned : ∀ line ∈ lines, line.lo % 4096 = 0 ∧ line.hi % 4096 = 0
  ordered : ∀ line ∈ lines, line.lo ≤ line.hi
  disjoint : lines.Pairwise (fun a b => a.hi ≤ b.lo)

def Child.native (c : Child) : Native where
  opened := .ok ()
  sameMm := true
  lines := c.lines.map some
  ended := true
  readable _ := true
  present := c.present
  recorded _ := true

def MapLine.pages (line : MapLine) : List Nat :=
  if line.isPrivate = true ∧ line.hi < 2 ^ 63 then
    List.range' line.lo ((line.hi - line.lo) / 4096) 4096
  else []

def Child.resident (c : Child) : List Nat := (c.lines.flatMap MapLine.pages).filter c.present

variable {line : MapLine} {p : Nat} {back front : List Nat} {batches : List (Nat × Batch)}

theorem mem_pages (aligned : line.lo % 4096 = 0 ∧ line.hi % 4096 = 0)
    (ordered : line.lo ≤ line.hi) :
    p ∈ line.pages ↔ line.isPrivate = true ∧ line.hi < 2 ^ 63 ∧ p % 4096 = 0 ∧
      line.lo ≤ p ∧ p < line.hi := by
  rw [MapLine.pages]
  split
  · rename_i scanned
    rw [mem_range']
    constructor
    · rintro ⟨i, inside, rfl⟩
      exact ⟨scanned.1, scanned.2, by omega, by omega, by omega⟩
    · rintro ⟨_, _, page, low, high⟩
      exact ⟨(p - line.lo) / 4096, by omega, by omega⟩
  · rename_i skipped
    constructor
    · intro mem
      cases mem
    · intro ⟨isPrivate, low, _⟩
      exact absurd ⟨isPrivate, low⟩ skipped

theorem Child.mem_resident (c : Child) :
    p ∈ c.resident ↔ c.present p = true ∧ p % 4096 = 0 ∧
      ∃ line ∈ c.lines, line.isPrivate = true ∧ line.hi < 2 ^ 63 ∧ line.lo ≤ p ∧ p < line.hi := by
  rw [Child.resident, mem_filter, mem_flatMap]
  constructor
  · rintro ⟨⟨line, mem, listed⟩, present⟩
    obtain ⟨isPrivate, limit, page, low, high⟩ :=
      (mem_pages (c.aligned line mem) (c.ordered line mem)).mp listed
    exact ⟨present, page, line, mem, isPrivate, limit, low, high⟩
  · rintro ⟨present, page, line, mem, isPrivate, limit, low, high⟩
    have listed := (mem_pages (c.aligned line mem) (c.ordered line mem)).mpr
      ⟨isPrivate, limit, page, low, high⟩
    exact ⟨⟨line, mem, listed⟩, present⟩

theorem spaced_range' (start count : Nat) : Spaced 4096 (List.range' start count 4096) := by
  induction count generalizing start with
  | zero => exact List.Pairwise.nil
  | succ count ih =>
    rw [List.range'_succ]
    refine pairwise_cons.mpr ⟨?_, ih _⟩
    intro p mem
    obtain ⟨i, _, rfl⟩ := mem_range'.mp mem
    omega

theorem Child.spaced_resident (c : Child) : Spaced 4096 c.resident := by
  apply List.Pairwise.filter
  rw [pairwise_flatMap]
  constructor
  · intro line _
    rw [MapLine.pages]
    split
    · exact spaced_range' _ _
    · exact List.Pairwise.nil
  · refine List.Pairwise.imp_of_mem ?_ c.disjoint
    intro first second firstMem secondMem apart p pMem q qMem
    have left := (mem_pages (c.aligned first firstMem) (c.ordered first firstMem)).mp pMem
    have right := (mem_pages (c.aligned second secondMem) (c.ordered second secondMem)).mp qMem
    have firstEnd := (c.aligned first firstMem).2
    omega

theorem pages_behind (aligned : line.lo % 4096 = 0 ∧ line.hi % 4096 = 0) {cursor : Nat}
    (page : cursor % 4096 = 0) :
    line.pages.filter (fun p => cursor ≤ p) =
      if line.isPrivate = false ∨ line.hi ≤ cursor ∨ 2 ^ 63 ≤ line.hi then []
      else
        List.range' (if line.lo < cursor then cursor else line.lo)
          ((line.hi - if line.lo < cursor then cursor else line.lo) / 4096) 4096 := by
  by_cases scanned : line.isPrivate = true ∧ line.hi < 2 ^ 63
  · rw [MapLine.pages, if_pos scanned]
    by_cases behind : line.hi ≤ cursor
    · rw [if_pos (.inr (.inl behind)), filter_eq_nil_iff]
      intro p mem
      obtain ⟨i, inside, rfl⟩ := mem_range'.mp mem
      rw [decide_eq_true_eq]
      omega
    · have taken : ¬(line.isPrivate = false ∨ line.hi ≤ cursor ∨ 2 ^ 63 ≤ line.hi) := by
        rintro (shared | passed | limit)
        · rw [shared] at scanned
          cases scanned.1
        · exact behind passed
        · omega
      rw [if_neg taken]
      by_cases inner : line.lo < cursor
      · -- The cursor splits the mapping at one of its pages.
        have total : (line.hi - line.lo) / 4096 =
            (cursor - line.lo) / 4096 + (line.hi - cursor) / 4096 := by omega
        have start : line.lo + 4096 * ((cursor - line.lo) / 4096) = cursor := by omega
        have before : (List.range' line.lo ((cursor - line.lo) / 4096) 4096).filter
            (fun p => cursor ≤ p) = [] := by
          rw [filter_eq_nil_iff]
          intro p mem
          obtain ⟨i, inside, rfl⟩ := mem_range'.mp mem
          rw [decide_eq_true_eq]
          omega
        have after : (List.range' cursor ((line.hi - cursor) / 4096) 4096).filter
            (fun p => cursor ≤ p) = List.range' cursor ((line.hi - cursor) / 4096) 4096 := by
          rw [filter_eq_self]
          intro p mem
          obtain ⟨i, _, rfl⟩ := mem_range'.mp mem
          exact decide_eq_true (Nat.le_add_right _ _)
        rw [if_pos inner, total, ← List.range'_append, filter_append, before, start, after,
          nil_append]
      · rw [if_neg inner, filter_eq_self]
        intro p mem
        obtain ⟨i, _, rfl⟩ := mem_range'.mp mem
        exact decide_eq_true (by omega)
  · have skipped : line.isPrivate = false ∨ line.hi ≤ cursor ∨ 2 ^ 63 ≤ line.hi := by
      cases shared : line.isPrivate with
      | false => exact .inl rfl
      | true =>
        have limit : ¬line.hi < 2 ^ 63 := fun low => scanned ⟨shared, low⟩
        omega
    rw [MapLine.pages, if_neg scanned, if_pos skipped, filter_nil]

def Child.behind (c : Child) (cursor : Nat) : List Nat := c.resident.filter (fun p => cursor ≤ p)

/-- The number of pages below the limit, which bounds every loop of the scan. -/
def pageLimit : Nat := 2 ^ 51

section
variable {c : Child} {fuel cursor : Nat}

theorem scanLines_eq (enough : pageLimit ≤ fuel) (page : cursor % 4096 = 0)
    {lines : List MapLine} (aligned : ∀ line ∈ lines, line.lo % 4096 = 0 ∧ line.hi % 4096 = 0)
    (ordered : ∀ line ∈ lines, line.lo ≤ line.hi) (found : List Nat) :
    scanLines c.native fuel cursor (lines.map some) found =
      gather (((lines.flatMap MapLine.pages).filter (fun p => cursor ≤ p)).filter c.present)
        found := by
  induction lines generalizing found with
  | nil => rfl
  | cons line rest ih =>
    have here := aligned line mem_cons_self
    have extent := ordered line mem_cons_self
    have later := ih (fun line mem => aligned line (mem_cons_of_mem _ mem))
      fun line mem => ordered line (mem_cons_of_mem _ mem)
    rw [map_cons, scanLines, flatMap_cons, filter_append, filter_append,
      gather_append, pages_behind here page]
    by_cases skipped : line.isPrivate = false ∨ line.hi ≤ cursor ∨ 2 ^ 63 ≤ line.hi
    · rw [if_pos skipped, if_pos skipped, filter_nil, gather]
      exact later found
    · rw [if_neg skipped, if_neg skipped]
      generalize start : (if line.lo < cursor then cursor else line.lo) = address
      have limit : pageLimit = 2 ^ 51 := rfl
      have pages : address % 4096 = 0 ∧ address ≤ line.hi := by
        split at start <;> omega
      have whole : address + 4096 * ((line.hi - address) / 4096) = line.hi := by omega
      rw [scanMapping_eq (n := c.native) (fun _ => rfl) (fun _ => rfl) found whole (by omega)]
      change (match gather ((List.range' address ((line.hi - address) / 4096) 4096).filter
          c.present) found with
        | .more found => scanLines c.native fuel cursor (rest.map some) found
        | ended => ended) = _
      cases gather ((List.range' address ((line.hi - address) / 4096) 4096).filter c.present)
          found with
      | more found => exact later found
      | full found next | failed | stuck => rfl

theorem sourceChildPages_eq (enough : pageLimit ≤ fuel) (page : cursor % 4096 = 0) :
    sourceChildPages c.native fuel cursor =
      match gather (c.behind cursor) [] with
      | .more found => some (.ok (Batch.of found 0))
      | .full found next => some (.ok (Batch.of found next))
      | .failed => some (.error .EIOerr)
      | .stuck => none := by
  have order : ((c.lines.flatMap MapLine.pages).filter (fun p => cursor ≤ p)).filter c.present =
      c.behind cursor := by
    rw [Child.behind, Child.resident, filter_filter, filter_filter]
    exact filter_congr fun p _ => Bool.and_comm _ _
  have scan := scanLines_eq (c := c) enough page c.aligned c.ordered []
  rw [order] at scan
  rw [← scan, sourceChildPages, if_neg (not_not_intro page)]
  rfl

/-- One batch: all pages behind the cursor when they leave room, or as many as the batch holds. -/
theorem sourceChildPages_cases (page : cursor % 4096 = 0) :
    ((c.behind cursor).length < childPagesMax ∧ ∀ fuel, pageLimit ≤ fuel →
        sourceChildPages c.native fuel cursor = some (.ok (Batch.of (c.behind cursor) 0))) ∨
      ∃ front last back, c.behind cursor = front ++ last :: back ∧
        front.length + 1 = childPagesMax ∧ ∀ fuel, pageLimit ≤ fuel →
          sourceChildPages c.native fuel cursor =
            some (.ok (Batch.of (front ++ [last]) (last + 4096))) := by
  obtain ⟨short, ran⟩ | ⟨front, last, back, split_, length, ran⟩ :=
    gather_cases (c.behind cursor) [] (by decide)
  · left
    rw [length_nil, Nat.zero_add] at short
    refine ⟨short, fun fuel enough => ?_⟩
    rw [sourceChildPages_eq enough page, ran]
    rfl
  · right
    rw [length_nil, Nat.zero_add] at length
    refine ⟨front, last, back, split_, length, fun fuel enough => ?_⟩
    rw [sourceChildPages_eq enough page, ran]
    rfl

theorem Child.behind_next {last : Nat} (split_ : c.behind cursor = front ++ last :: back) :
    c.behind (last + 4096) = back := by
  have spaced : Spaced 4096 (front ++ last :: back) := by
    rw [← split_]
    exact c.spaced_resident.filter _
  have start : cursor ≤ last := by
    have mem : last ∈ c.behind cursor := by
      rw [split_]
      exact mem_append_right _ mem_cons_self
    exact of_decide_eq_true (mem_filter.mp mem).2
  rw [← spaced.filter_after (by decide), ← split_, Child.behind, Child.behind, filter_filter]
  apply filter_congr
  intro p _
  by_cases after : last + 4096 ≤ p
  · have passed : cursor ≤ p := by omega
    rw [decide_eq_true after, decide_eq_true passed]
    rfl
  · rw [decide_eq_false after]
    rfl

theorem Child.mem_behind (mem : p ∈ c.behind cursor) :
    p % 4096 = 0 ∧ cursor ≤ p ∧ p + 4096 < 2 ^ 63 := by
  obtain ⟨resident, passed⟩ := mem_filter.mp mem
  obtain ⟨_, page, line, known, _, limit, low, high⟩ := c.mem_resident.mp resident
  have aligned := (c.aligned line known).2
  exact ⟨page, of_decide_eq_true passed, by omega⟩

theorem Child.spaced_behind : Spaced 4096 (c.behind cursor) := c.spaced_resident.filter _

end

/-! The executor's check. -/

@[simp] theorem Batch.listed_of (found : List Nat) (next : Nat) :
    (Batch.of found next).listed = found := by
  apply ext_getElem
  · simp [Batch.listed, Batch.of]
  · intro i first second
    simp [Batch.listed, Batch.of, second]

theorem checkPages_ok {l : List Nat} {cursor bound : Nat} (low : cursor ≤ bound)
    (spaced : Spaced 4096 l)
    (pages : ∀ p ∈ l, p % 4096 = 0 ∧ p < 2 ^ 63 ∧ cursor ≤ p ∧ p + 4096 ≤ bound) :
    ∃ previous, checkPages l cursor = some previous ∧ previous ≤ bound := by
  induction l generalizing cursor with
  | nil => exact ⟨cursor, rfl, low⟩
  | cons p rest ih =>
    obtain ⟨behind, later⟩ := pairwise_cons.mp spaced
    have first := pages p mem_cons_self
    have passes : ¬(p % 4096 ≠ 0 ∨ 2 ^ 63 ≤ p ∨ p < cursor) := by omega
    rw [checkPages, if_neg passes]
    apply ih first.2.2.2 later
    intro q mem
    have other := pages q (mem_cons_of_mem p mem)
    exact ⟨other.1, other.2.1, behind q mem, other.2.2.2⟩

theorem childPagesValid_of {found : List Nat} {next cursor : Nat}
    (length : found.length ≤ childPagesMax) (page : cursor % 4096 = 0) (spaced : Spaced 4096 found)
    (pages : ∀ p ∈ found, p % 4096 = 0 ∧ p < 2 ^ 63 ∧ cursor ≤ p)
    (last : next ≠ 0 → next % 4096 = 0 ∧ cursor < next ∧ next < 2 ^ 63 ∧
      ∀ p ∈ found, p + 4096 ≤ next) : childPagesValid (Batch.of found next) cursor = true := by
  have framed : ¬(childPagesMax < (Batch.of found next).count ∨ (Batch.of found next).reserved ≠ 0 ∨
      cursor % 4096 ≠ 0) := by
    rintro (long | reserved | unaligned)
    · exact Nat.not_lt_of_le length long
    · exact reserved rfl
    · exact unaligned page
  have padded : (List.range' (Batch.of found next).count
      (childPagesMax - (Batch.of found next).count)).all
        (fun i => (Batch.of found next).pages i = 0) = true := by
    rw [all_eq_true]
    intro i mem
    have behind : found.length ≤ i := (mem_range'_1.mp mem).1
    apply decide_eq_true
    show found.getD i 0 = 0
    rw [getD_eq_getElem?_getD, List.getElem?_eq_none behind]
    rfl
  rw [childPagesValid, if_neg framed, Batch.listed_of, padded]
  by_cases final : next = 0
  · obtain ⟨previous, checked, _⟩ := @checkPages_ok found cursor (cursor + 2 ^ 63 + 4096) (by omega)
      spaced fun p mem => by
        have known := pages p mem
        exact ⟨known.1, known.2.1, known.2.2, by omega⟩
    simp only [checked]
    exact if_neg fun resumed => resumed.1 final
  · obtain ⟨aligned, after, limit, ends⟩ := last final
    obtain ⟨previous, checked, before⟩ := checkPages_ok (Nat.le_of_lt after) spaced fun p mem =>
      ⟨(pages p mem).1, (pages p mem).2.1, (pages p mem).2.2, ends p mem⟩
    simp only [checked]
    apply if_neg
    rintro ⟨_, unaligned | passed | early | large⟩
    · exact unaligned aligned
    · exact Nat.not_lt_of_le passed after
    · exact Nat.not_lt_of_le before early
    · exact Nat.not_lt_of_le large limit

/-- What a checked batch holds: ordered pages between the cursor and the next one. -/
structure Checked (b : Batch) (cursor : Nat) : Prop where
  spaced : Spaced 4096 b.listed
  after : ∀ p ∈ b.listed, cursor ≤ p
  resumes : b.next ≠ 0 → cursor + 4096 ≤ b.next ∧ b.next < 2 ^ 63 ∧
    ∀ p ∈ b.listed, p + 4096 ≤ b.next

theorem checkPages_some {l : List Nat} {cursor previous : Nat}
    (checked : checkPages l cursor = some previous) :
    cursor ≤ previous ∧ Spaced 4096 l ∧ ∀ p ∈ l, cursor ≤ p ∧ p + 4096 ≤ previous := by
  induction l generalizing cursor with
  | nil =>
    cases checked
    exact ⟨Nat.le_refl _, List.Pairwise.nil, nofun⟩
  | cons p rest ih =>
    rw [checkPages] at checked
    split at checked
    · cases checked
    · obtain ⟨ends, spaced, pages⟩ := ih checked
      refine ⟨by omega, pairwise_cons.mpr ⟨fun q mem => (pages q mem).1, spaced⟩, ?_⟩
      intro q mem
      rcases mem_cons.mp mem with rfl | later
      · exact ⟨by omega, ends⟩
      · have known := pages q later
        exact ⟨by omega, known.2⟩

theorem checked_of_valid {b : Batch} {cursor : Nat} (valid : childPagesValid b cursor = true) :
    Checked b cursor := by
  rw [childPagesValid] at valid
  split at valid
  · cases valid
  · rename_i framed
    cases checked : checkPages b.listed cursor with
    | none => simp [checked] at valid
    | some previous =>
      obtain ⟨_, spaced, pages⟩ := checkPages_some checked
      refine ⟨spaced, fun p mem => (pages p mem).1, ?_⟩
      intro resumed
      simp only [checked] at valid
      split at valid
      · cases valid
      · rename_i accepted
        have ordered : ¬(b.next % 4096 ≠ 0 ∨ b.next ≤ cursor ∨ b.next < previous ∨
            2 ^ 63 ≤ b.next) := fun bad => accepted ⟨resumed, bad⟩
        refine ⟨by omega, by omega, ?_⟩
        intro p mem
        have known := (pages p mem).2
        omega

/-! The executor against any peer. -/

/-- The round leaves the collected pages in order, and moves the cursor forward if it continues. -/
def Round.Ordered (cursor : Nat) : Round → Prop
  | .done _ out => out.Pairwise (· < ·)
  | .again next out => cursor + 4096 ≤ next ∧ next < 2 ^ 63 ∧ out.Pairwise (· < ·) ∧
      ∀ p ∈ out, p < next

theorem readRound_ordered {peer : Peer} {round cursor : Nat} {out : List Nat}
    (sorted : out.Pairwise (· < ·)) (below : ∀ p ∈ out, p < cursor) :
    (readRound peer round cursor out).Ordered cursor := by
  rw [readRound]
  cases peer.reply round cursor with
  | none => exact sorted
  | some b =>
    simp only []
    by_cases valid : childPagesValid b cursor = true
    · have checked := checked_of_valid valid
      have joined : (out ++ b.listed).Pairwise (· < ·) := by
        refine pairwise_append.mpr ⟨sorted, checked.spaced.increasing (by decide), ?_⟩
        intro p mem q listed
        exact Nat.lt_of_lt_of_le (below p mem) (checked.after q listed)
      rw [if_neg (by rw [valid]; exact Bool.noConfusion)]
      split
      · exact sorted
      · by_cases final : b.next = 0
        · rw [if_pos final]
          exact joined
        · rw [if_neg final]
          obtain ⟨forward, limit, ends⟩ := checked.resumes final
          refine ⟨forward, limit, joined, ?_⟩
          intro p mem
          rcases mem_append.mp mem with old | listed
          · have passed := below p old
            omega
          · have ended := ends p listed
            omega
    · rw [if_pos (Bool.eq_false_iff.mpr valid)]
      exact sorted

theorem read_ends {peer : Peer} {rounds round cursor : Nat} {out : List Nat}
    (limit : cursor < 2 ^ 63) (enough : 2 ^ 63 ≤ cursor + 4096 * rounds)
    (sorted : out.Pairwise (· < ·)) (below : ∀ p ∈ out, p < cursor) :
    ∃ result, (∀ fuel, rounds ≤ fuel →
        childSourcePagesRead peer fuel round cursor out = some result) ∧
      result.2.Pairwise (· < ·) := by
  induction rounds generalizing round cursor out with
  | zero => omega
  | succ rounds ih =>
    have kept := @readRound_ordered peer round _ _ sorted below
    cases ran : readRound peer round cursor out with
    | done succeeded final =>
      rw [ran] at kept
      refine ⟨(succeeded, final), ?_, kept⟩
      intro fuel large
      obtain ⟨less, rfl⟩ := Nat.exists_eq_succ_of_ne_zero (show fuel ≠ 0 by omega)
      rw [childSourcePagesRead]
      simp only [ran]
    | again next collected =>
      rw [ran] at kept
      obtain ⟨forward, small, ordered, passed⟩ := kept
      obtain ⟨result, reads, final⟩ :=
        @ih (round + 1) next collected small (by omega) ordered passed
      refine ⟨result, ?_, final⟩
      intro fuel large
      obtain ⟨less, rfl⟩ := Nat.exists_eq_succ_of_ne_zero (show fuel ≠ 0 by omega)
      rw [childSourcePagesRead]
      simp only [ran]
      exact reads less (by omega)

/-! A whole scan. -/

/-- The batches of a scan from the cursor: each passes the check, together they hold the resident
pages, and the last one has no successor. -/
structure Scanned (c : Child) (cursor : Nat) (batches : List (Nat × Batch)) : Prop where
  valid : ∀ entry ∈ batches, childPagesValid entry.2 entry.1 = true
  pages : batches.flatMap (fun entry => entry.2.listed) = c.behind cursor
  ended : ∃ entry, batches.getLast? = some entry ∧ entry.2.next = 0

section
variable {c : Child} {cursor : Nat}

theorem Scanned.last (page : cursor % 4096 = 0) (short : (c.behind cursor).length < childPagesMax) :
    Scanned c cursor [(cursor, Batch.of (c.behind cursor) 0)] := by
  refine ⟨?_, by simp, ⟨_, rfl, rfl⟩⟩
  intro entry mem
  rw [mem_singleton.mp mem]
  refine childPagesValid_of (Nat.le_of_lt short) page c.spaced_behind ?_ (absurd rfl)
  intro p listed
  have known := c.mem_behind listed
  exact ⟨known.1, by omega, known.2.1⟩

theorem Scanned.cons {last : Nat} (page : cursor % 4096 = 0)
    (split_ : c.behind cursor = front ++ last :: back) (length : front.length + 1 = childPagesMax)
    (scanned : Scanned c (last + 4096) batches) :
    Scanned c cursor ((cursor, Batch.of (front ++ [last]) (last + 4096)) :: batches) := by
  have whole : c.behind cursor = (front ++ [last]) ++ back := by
    rw [split_, append_assoc, singleton_append]
  have spaced : Spaced 4096 (front ++ [last]) := by
    have all := @Child.spaced_behind c cursor
    rw [whole] at all
    exact (pairwise_append.mp all).1
  have known : ∀ p ∈ front ++ [last], p % 4096 = 0 ∧ cursor ≤ p ∧ p + 4096 < 2 ^ 63 := by
    intro p mem
    apply c.mem_behind
    rw [whole]
    exact mem_append_left back mem
  have final := known last (mem_append_right front mem_cons_self)
  refine ⟨?_, ?_, ?_⟩
  · intro entry mem
    rcases mem_cons.mp mem with rfl | later
    · refine childPagesValid_of (by simp; omega) page spaced ?_ ?_
      · intro p listed
        have here := known p listed
        exact ⟨here.1, by omega, here.2.1⟩
      · intro _
        refine ⟨by omega, by omega, final.2.2, ?_⟩
        intro p listed
        rcases mem_append.mp listed with before | self
        · have apart := (pairwise_append.mp spaced).2.2 p before last mem_cons_self
          omega
        · rw [mem_singleton.mp self]
    · exact scanned.valid entry later
  · rw [flatMap_cons, scanned.pages, c.behind_next split_, whole, Batch.listed_of]
  · obtain ⟨entry, found, zero⟩ := scanned.ended
    refine ⟨entry, ?_, zero⟩
    rw [List.getLast?_cons, found]
    rfl

theorem publish_scanned {bound : Nat} (page : cursor % 4096 = 0)
    (length : (c.behind cursor).length < bound) :
    ∃ batches, (∀ fuel rounds, pageLimit ≤ fuel → bound ≤ rounds →
        publish c.native fuel rounds cursor = some batches) ∧ Scanned c cursor batches := by
  induction bound generalizing cursor with
  | zero => omega
  | succ bound ih =>
    obtain ⟨short, call⟩ | ⟨front, last, back, split_, filled, call⟩ :=
      sourceChildPages_cases (c := c) page
    · refine ⟨_, ?_, Scanned.last page short⟩
      intro fuel rounds enough large
      obtain ⟨less, rfl⟩ := Nat.exists_eq_succ_of_ne_zero (show rounds ≠ 0 by omega)
      rw [publish, call fuel enough]
      rfl
    · have left : (c.behind (last + 4096)).length < bound := by
        rw [split_, length_append, length_cons] at length
        rw [c.behind_next split_]
        omega
      have aligned : (last + 4096) % 4096 = 0 := by
        have mem : last ∈ c.behind cursor := by
          rw [split_]
          exact mem_append_right _ mem_cons_self
        have known := (c.mem_behind mem).1
        omega
      obtain ⟨batches, published, scanned⟩ := ih aligned left
      refine ⟨_, ?_, scanned.cons page split_ filled⟩
      intro fuel rounds enough large
      obtain ⟨less, rfl⟩ := Nat.exists_eq_succ_of_ne_zero (show rounds ≠ 0 by omega)
      have later := published fuel less enough (by omega)
      rw [publish, call fuel enough]
      show (publish c.native fuel less (last + 4096)).map _ = _
      rw [later]
      rfl

end

theorem Child.length_resident_le (c : Child) : c.resident.length ≤ pageLimit := by
  have limit : pageLimit = 2 ^ 51 := rfl
  have extent : 0 + c.resident.length * 4096 ≤ 2 ^ 63 := by
    apply c.spaced_resident.length_mul_le (by decide)
    intro p mem
    obtain ⟨_, page, line, known, _, high, low, inside⟩ := c.mem_resident.mp mem
    have aligned := (c.aligned line known).2
    omega
  omega

theorem read_of_publish {n : Native} {fuel rounds cursor : Nat}
    (published : publish n fuel rounds cursor = some batches)
    (valid : ∀ entry ∈ batches, childPagesValid entry.2 entry.1 = true) (round : Nat)
    (out : List Nat)
    (room : (out ++ batches.flatMap fun entry => entry.2.listed).length ≤ pageLimit) :
    childSourcePagesRead (n.peer fuel) rounds round cursor out =
      some (true, out ++ batches.flatMap fun entry => entry.2.listed) := by
  induction rounds generalizing cursor batches round out with
  | zero => cases published
  | succ rounds ih =>
    rw [publish] at published
    split at published
    · rename_i b call
      have reply : (n.peer fuel).reply round cursor = some b := by
        simp only [Native.peer, call]
      have fits : ∀ later : List Nat, (out ++ (b.listed ++ later)).length ≤ pageLimit →
          ¬(b.count ≠ 0 ∧ (Table.sizeMax / 8 - b.count < out.length ∨
            (n.peer fuel).grows round = false)) := by
        rintro later room ⟨_, overflow | full⟩
        · have counted : b.listed.length = b.count := by simp [Batch.listed]
          have limit : pageLimit = 2 ^ 51 := rfl
          have largest : Table.sizeMax = 2 ^ 64 - 1 := rfl
          rw [length_append, length_append] at room
          omega
        · cases full
      by_cases final : b.next = 0
      · rw [if_pos final] at published
        cases published
        have passes := valid _ mem_cons_self
        rw [flatMap_cons] at room ⊢
        rw [childSourcePagesRead, readRound, reply]
        simp only []
        rw [if_neg (by rw [passes]; exact Bool.noConfusion), if_neg (fits _ room), if_pos final]
        simp
      · rw [if_neg final] at published
        obtain ⟨later, rest, rfl⟩ := Option.map_eq_some_iff.mp published
        have passes := valid _ mem_cons_self
        rw [flatMap_cons] at room ⊢
        rw [childSourcePagesRead, readRound, reply]
        simp only []
        rw [if_neg (by rw [passes]; exact Bool.noConfusion), if_neg (fits _ room), if_neg final]
        simp only []
        rw [← append_assoc] at room ⊢
        exact ih rest (fun entry mem => valid entry (mem_cons_of_mem _ mem)) _ _ room
    · cases published

/-- What `vmctx_child_pages` owes the executor of a parked child. -/
structure Publishes (c : Child) : Prop where
  /-- The scan ends, each batch passes the check for the cursor it was requested with, and together
  they hold the resident pages. -/
  scans : ∃ batches, (∀ fuel rounds, pageLimit ≤ fuel → pageLimit < rounds →
      publish c.native fuel rounds 0 = some batches) ∧
    (∀ entry ∈ batches, childPagesValid entry.2 entry.1 = true) ∧
    batches.flatMap (fun entry => entry.2.listed) = c.resident ∧
    ∃ entry, batches.getLast? = some entry ∧ entry.2.next = 0
  /-- The resident pages are listed in strictly increasing order. -/
  increasing : c.resident.Pairwise (· < ·)
  /-- They are the present pages of the private mappings that end below the limit. -/
  exact_ : ∀ p, p ∈ c.resident ↔ c.present p = true ∧ p % 4096 = 0 ∧
    ∃ line ∈ c.lines, line.isPrivate = true ∧ line.hi < 2 ^ 63 ∧ line.lo ≤ p ∧ p < line.hi
  /-- The executor's loop reads exactly these pages. -/
  reads : ∀ fuel rounds, pageLimit ≤ fuel → pageLimit < rounds →
    childSourcePagesRead (c.native.peer fuel) rounds 0 0 [] = some (true, c.resident)
  /-- Against any peer the executor's loop ends, with pages that are in order and distinct. -/
  guards : ∀ peer : Peer, ∃ result, (∀ fuel, pageLimit ≤ fuel →
      childSourcePagesRead peer fuel 0 0 [] = some result) ∧ result.2.Pairwise (· < ·)

/-- A parked child's private pages are published: every batch of a scan is accepted, and the whole
scan ends with exactly those pages, in increasing order. -/
theorem child_pages_published (c : Child) : Publishes c := by
  have all : c.behind 0 = c.resident := by
    rw [Child.behind, filter_eq_self]
    intro p _
    exact decide_eq_true (Nat.zero_le p)
  have length : (c.behind 0).length < pageLimit + 1 := by
    rw [all]
    exact Nat.lt_succ_of_le c.length_resident_le
  obtain ⟨batches, published, scanned⟩ := publish_scanned (Nat.zero_mod 4096) length
  have pages := scanned.pages
  rw [all] at pages
  constructor
  · exact ⟨batches, published, scanned.valid, pages, scanned.ended⟩
  · exact c.spaced_resident.increasing (by decide)
  · intro p
    exact c.mem_resident
  · intro fuel rounds enough large
    have room : ([] ++ batches.flatMap fun entry : Nat × Batch => entry.2.listed).length ≤
        pageLimit := by
      rw [nil_append, pages]
      exact c.length_resident_le
    rw [read_of_publish (published fuel rounds enough large) scanned.valid 0 [] room,
      nil_append, pages]
  · intro peer
    exact read_ends (by decide) (by decide) List.Pairwise.nil nofun

/-- A child with a shared mapping between two private ones, and one page that is not present. -/
def Child.sample : Child where
  lines := [⟨0x1000, 0x102000, true⟩, ⟨0x200000, 0x201000, false⟩, ⟨0x300000, 0x303000, true⟩]
  present p := p != 0x301000
  aligned := by decide
  ordered := by decide
  disjoint := by decide

example : (publish Child.sample.native 300 3 0).map (·.map fun entry => (entry.1, entry.2.count)) =
    some [(0, 256), (0x101000, 3)] := by decide +kernel

end Vmctx.ChildPages
