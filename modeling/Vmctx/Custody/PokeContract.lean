import Vmctx.Custody.PokeRun
/-!
# All or nothing

The final section of a write refuses when any of its reservations is cancelled, and otherwise copies
everything and records its pages. So a write stores all of its bytes, into frames that were mapped
where they were pinned and on pages that nobody else could have, or it stores nothing and returns an
error. Two things break this. The record of a page without an entry needs an allocation, whose
failure the final section ignores: then the bytes are stored and the page is not recorded as held
here. And a discard notes its range before it changes the page tables: a write that reserves the
page after the note has a reservation that nothing cancels, and stores its bytes into a frame that
is no longer mapped when the page goes between its pinning and its copy.
-/

namespace Vmctx.Custody

open Kernel Vmctx.System Function List

variable {k k' : Kernel} {a : Act} {reply : Reply} {p : Page} {id : Nat}

/-! The bytes a write stores. -/

section Bytes

variable {mm addr len : Nat} {bytes : Nat → UInt8} {pairs : List (Page × Nat)}
  {memory : Nat → PageBytes} {frame : Nat} {offset : Fin 4096}

def byteOffset (addr : Nat) : Fin 4096 := ⟨addr % 4096, Nat.mod_lt _ (by decide)⟩

def Inside (addr len : Nat) (p : Page) (offset : Fin 4096) : Prop :=
  addr ≤ p.idx * 4096 + offset ∧ p.idx * 4096 + offset < addr + len

def patched (kind : OpKind) (pairs : List (Page × Nat)) (memory : Nat → PageBytes) :
    Nat → PageBytes :=
  pairs.foldl (fun memory page =>
    update memory page.2 (kind.patch page.1 (memory page.2))) memory

theorem patch_byte (page : Page × Nat) : update memory page.2
    ((OpKind.poke mm addr len bytes).patch page.1 (memory page.2)) frame offset =
    if frame = page.2 ∧ addr ≤ page.1.idx * 4096 + offset ∧
        page.1.idx * 4096 + offset < addr + len then
      bytes (page.1.idx * 4096 + offset - addr) else memory frame offset := by
  by_cases same : frame = page.2
  · subst same
    simp [OpKind.patch]
  · simp [same]

theorem patched_elsewhere (outside : ∀ p, (p, frame) ∈ pairs → ¬ Inside addr len p offset) :
    patched (.poke mm addr len bytes) pairs memory frame offset = memory frame offset := by
  induction pairs generalizing memory with
  | nil => rfl
  | cons page rest ih =>
    have later := fun p member => outside p (mem_cons_of_mem _ member)
    rw [patched, foldl_cons, ← patched, ih later, patch_byte, if_neg]
    rintro ⟨rfl, covered⟩
    exact outside page.1 mem_cons_self covered

/-- A byte of the range is stored into the frame of its page, also where both pages have the same
frame: the range is at most a page long. -/
theorem patched_byte {i : Nat} (short : len ≤ 4096) (inside : i < len)
    (place : ∃ p, (p, frame) ∈ pairs ∧ p.idx * 4096 + offset = addr + i) :
    patched (.poke mm addr len bytes) pairs memory frame offset = bytes i := by
  induction pairs generalizing memory with
  | nil =>
    obtain ⟨p, pair, -⟩ := place
    cases pair
  | cons page rest ih =>
    rw [patched, foldl_cons, ← patched]
    by_cases later : ∃ p, (p, frame) ∈ rest ∧ p.idx * 4096 + offset = addr + i
    · exact ih later
    obtain ⟨p, pair, here⟩ := place
    rcases mem_cons.mp pair with first | member
    · -- Two pages that cover the same offset of the range have the same number.
      have outside : ∀ q, (q, frame) ∈ rest → ¬ Inside addr len q offset := by
        intro q member covered
        obtain ⟨low, high⟩ := covered
        have same : q.idx = p.idx := by omega
        exact later ⟨q, member, by rw [same, here]⟩
      have covered : Inside addr len p offset := ⟨by omega, by omega⟩
      have index : p.idx * 4096 + offset - addr = i := by omega
      rw [patched_elsewhere outside, patch_byte, ← first, if_pos ⟨rfl, covered⟩, index]
    · exact absurd ⟨p, member, here⟩ later

end Bytes

variable {frames : List Nat}

theorem zip_total {pages : List Page} (length : pages.length = frames.length) (member : p ∈ pages) :
    ∃ frame, (p, frame) ∈ pages.zip frames := by
  rw [← map_fst_zip (Nat.le_of_eq length)] at member
  obtain ⟨⟨q, frame⟩, pair, rfl⟩ := mem_map.mp member
  exact ⟨frame, pair⟩

theorem poke_pages {mm addr len : Nat} {bytes : Nat → UInt8}
    (sized : (OpKind.poke mm addr len bytes).Sized) :
    ((OpKind.poke mm addr len bytes).pages.length = 1 ∨
      (OpKind.poke mm addr len bytes).pages.length = 2) ∧
    ∀ p, p ∈ (OpKind.poke mm addr len bytes).pages ↔
      ∃ i, i < len ∧ p = ⟨mm, (addr + i) / 4096⟩ := by
  obtain ⟨some_, short, -⟩ := sized
  refine ⟨?_, ?_⟩
  · simp only [OpKind.pages, length_map, length_range]
    omega
  · intro p
    simp only [OpKind.pages, mem_map, mem_range]
    constructor
    · rintro ⟨j, bound, rfl⟩
      -- The first byte of the write in this page.
      refine ⟨if j = 0 then 0 else j * 4096 - addr % 4096, ?_, ?_⟩
      · split <;> omega
      · congr 1
        split <;> omega
    · rintro ⟨i, bound, rfl⟩
      refine ⟨(addr + i) / 4096 - addr / 4096, by omega, ?_⟩
      congr 1
      omega

namespace Poking

variable {w w' : Poking}

/-! What one step of a write does. -/

def Label.of (id : Nat) : Label → Prop
  | .gup other _ => other = id
  | .put other => other = id
  | .section_ a => a.opId = some id
  | .poke .. => False

def Label.erases (p : Page) : Label → Prop
  | .section_ a => a.erases p
  | _ => False

/-- The final section can record every page it writes: where a page has no record, an entry can be
allocated. -/
def recordable (w : Poking) : Label → Bool
  | .section_ (.opWrite id nomem) => match w.kernel.ops id with
    | some op => op.held.all fun p =>
      !((w.kernel.pages p).record == .absent && nomem.contains p)
    | none => true
  | _ => true

structure Idle (w w' : Poking) (id : Nat) : Prop where
  memory : w'.kernel.memory = w.kernel.memory
  records : ∀ p, (w'.kernel.pages p).record = (w.kernel.pages p).record
  copies : (w'.calls id).copies = (w.calls id).copies

structure Copied (w w' : Poking) (id mm addr len : Nat) (bytes : Nat → UInt8) : Prop where
  /-- The write holds every page it touches, this side held it at the check and does now, and it was
  not erased since it was reserved. -/
  held : ∀ p, p ∈ (OpKind.poke mm addr len bytes).pages →
    (w.kernel.pages p).entry = some ⟨.guard id, false⟩ ∧
    ((w.calls id).seen p).here = true ∧ (w.kernel.pages p).record.state.here = true ∧
    (w.kernel.pages p).erasures = (w.calls id).births p
  stored : ∀ i, i < len → ∃ frame, frame ∈ (w.calls id).pins ∧
    (w.kernel.pages ⟨mm, (addr + i) / 4096⟩).frame = some frame ∧
    w'.kernel.memory frame (byteOffset (addr + i)) = bytes i
  elsewhere : ∀ frame (offset : Fin 4096),
    (∀ i, i < len → (w.kernel.pages ⟨mm, (addr + i) / 4096⟩).frame = some frame →
      byteOffset (addr + i) ≠ offset) →
    w'.kernel.memory frame offset = w.kernel.memory frame offset
  recorded : ∀ p, p ∈ (OpKind.poke mm addr len bytes).pages →
    (w'.kernel.pages p).record = ⟨.home, 0, (w.kernel.pages p).record.gen⟩
  unrecorded : ∀ p, p ∉ (OpKind.poke mm addr len bytes).pages →
    (w'.kernel.pages p).record = (w.kernel.pages p).record
  copies : (w'.calls id).copies = (w.calls id).copies + 1

variable {nomem held todo : List Page} {label : Label} {kind : OpKind} {result : Option Errno}
  {op : LocalOp}

/-- What the final section does: it stops when a reservation is cancelled, and otherwise patches the
pages and records those it holds. -/
theorem opWrite_cases (ran : k.opWrite id nomem = some (k', reply)) :
    ∃ kind held frames, k.ops id = some ⟨kind, [], held, .pinned frames⟩ ∧
      ((reply = .ok ∧ k'.memory = k.memory ∧ k'.pages = k.pages) ∨
        (reply = .wrote ∧ (∀ p, p ∈ held → (k.pages p).cancelled (.guard id) = false) ∧
          k'.memory = patched kind (kind.pages.zip frames) k.memory ∧
          ∀ p, (k'.pages p).record = if p ∈ held then
            ((k.pages p).store ⟨.home, 0, opGen kind (k.pages p).record.gen⟩ (.guard id)
              (nomem.contains p)).record else (k.pages p).record)) := by
  simp only [opWrite] at ran
  split at ran
  case h_2 => cases ran
  next kind held frames found =>
  refine ⟨kind, held, frames, found, ?_⟩
  split at ran
  · cases ran
    exact .inl ⟨rfl, rfl, rfl⟩
  · next live =>
    have alive : ∀ p, p ∈ held → (k.pages p).cancelled (.guard id) = false := by
      intro p member
      by_contra gone
      rw [Bool.not_eq_false] at gone
      exact live (any_eq_true.mpr ⟨p, member, gone⟩)
    cases ran
    refine .inr ⟨rfl, alive, rfl, ?_⟩
    intro p
    simp only [setOp_pages]
    split <;> rfl

theorem own_idle (good : k.Good) (ran : step k a = some (k', reply)) (own : a.opId = some id)
    (early : ∀ nomem, a ≠ .opWrite id nomem) :
    k'.memory = k.memory ∧ ∀ p, (k'.pages p).record = (k.pages p).record := by
  refine ⟨?_, ?_⟩
  · cases a with
    | opReserve =>
      simp only [Custody.step, opReserve, opFail] at ran
      (repeat' split at ran) <;> cases ran <;> rfl
    | opCheck =>
      simp only [Custody.step, opCheck] at ran
      (repeat' split at ran) <;> cases ran <;> rfl
    | opPin =>
      simp only [Custody.step, opPin, opFail] at ran
      (repeat' split at ran) <;> cases ran <;> rfl
    | opWrite other nomem =>
      cases own
      exact absurd rfl (early nomem)
    | opEnd =>
      simp only [Custody.step, opEnd] at ran
      (repeat' split at ran) <;> cases ran <;> rfl
    | _ => cases own
  · intro p
    cases step_moves good ran p with
    | quiet page | reserved _ _ page | released _ _ page => exact (PageState.core_eq.mp page).1
    | erased inRange =>
      cases a <;> first
        | exact inRange.elim
        | cases own
    | wrote writes =>
      cases writes with
      | op =>
        cases own
        exact absurd rfl (early _)
      | _ => cases own
    | recalled begins =>
      rw [begins] at own
      cases own
    | unlinked _ _ by_ =>
      rcases by_ with rfl | rfl | ⟨_, rfl⟩ <;> cases own

theorem Tracks.copied (tracks : w.Tracks) {mm addr len : Nat} {bytes : Nat → UInt8}
    (asked : (w.calls id).asked = some (.poke mm addr len bytes))
    (found : w.kernel.ops id = some ⟨.poke mm addr len bytes, [], held, .pinned frames⟩)
    (alive : ∀ p, p ∈ held → (w.kernel.pages p).cancelled (.guard id) = false)
    (memory : k'.memory = patched (.poke mm addr len bytes)
      ((OpKind.poke mm addr len bytes).pages.zip frames) w.kernel.memory)
    (records : ∀ p, (k'.pages p).record = if p ∈ held then
      ((w.kernel.pages p).store ⟨.home, 0, (w.kernel.pages p).record.gen⟩ (.guard id)
        (nomem.contains p)).record else (w.kernel.pages p).record)
    (room : ∀ p, p ∈ held → (w.kernel.pages p).record = .absent → nomem.contains p = false) :
    w.Copied ⟨k', update w.calls id ((w.calls id).writes .wrote)⟩ id mm addr len
      bytes := by
  have fits := tracks.fits id _ found
  obtain ⟨-, short, -⟩ := tracks.sized id _ asked
  obtain ⟨-, pages⟩ := poke_pages (tracks.sized id _ asked)
  obtain ⟨pins, length, mapped⟩ := fits.pinned frames rfl
  have all (p : Page) : p ∈ (OpKind.poke mm addr len bytes).pages ↔ p ∈ held :=
    ⟨fits.holds tracks.good found rfl, fun member => fits.own p (.inl member)⟩
  have since (p : Page) (member : p ∈ held) :
      (w.kernel.pages p).erasures = (w.calls id).births p := by
    obtain ⟨-, entry⟩ := fits.marked p member
    by_contra erased
    have gone := alive p member
    simp [PageState.cancelled, entry, erased] at gone
  have pair (p : Page) (member : p ∈ held) :
      ∃ frame, (p, frame) ∈ (OpKind.poke mm addr len bytes).pages.zip frames ∧
        (w.kernel.pages p).frame = some frame := by
    obtain ⟨frame, paired⟩ := zip_total length.symm ((all p).mpr member)
    exact ⟨frame, paired, mapped p frame paired (since p member)⟩
  refine ⟨?_, ?_, ?_, ?_, ?_, ?_⟩
  · intro p own
    have member := (all p).mp own
    obtain ⟨-, entry⟩ := fits.marked p member
    obtain ⟨here, seen⟩ := fits.here rfl rfl p member
    refine ⟨?_, seen, here, since p member⟩
    rw [entry, since p member]
    simp
  · intro i inside
    have own := (pages ⟨mm, (addr + i) / 4096⟩).mpr ⟨i, inside, rfl⟩
    obtain ⟨frame, member, at_⟩ := pair _ ((all _).mp own)
    refine ⟨frame, ?_, at_, ?_⟩
    · rw [pins]
      exact (of_mem_zip member).2
    · simp only [memory]
      refine patched_byte short inside ⟨_, member, ?_⟩
      simp only [byteOffset]
      omega
  · intro frame offset untouched
    simp only [memory]
    apply patched_elsewhere
    rintro p member ⟨low, high⟩
    have own := (of_mem_zip member).1
    have at_ := mapped p frame member (since p ((all p).mp own))
    obtain ⟨j, _, rfl⟩ := (pages p).mp own
    have bound := offset.isLt
    have place : (addr + ((addr + j) / 4096 * 4096 + offset - addr)) / 4096 =
        (addr + j) / 4096 := by
      simp only at low
      omega
    refine untouched ((addr + j) / 4096 * 4096 + offset - addr) ?_ ?_ ?_
    · simp only at low high
      omega
    · rw [place]
      exact at_
    · apply Fin.ext
      simp only at low
      simp only [byteOffset]
      omega
  · intro p own
    have member := (all p).mp own
    simp only [records p, if_pos member, PageState.store]
    rw [if_neg]
    · rfl
    · rintro ⟨absent, full⟩
      rw [room p member absent] at full
      cases full
  · intro p apart
    simp only [records p]
    rw [if_neg fun member => apart ((all p).mpr member)]
  · simp [Call.writes]

theorem Tracks.all_or_nothing (tracks : w.Tracks) {mm addr len : Nat} {bytes : Nat → UInt8}
    (asked : (w.calls id).asked = some (.poke mm addr len bytes)) (own : label.of id)
    (recordable : w.recordable label = true) (next : Step w label w') :
    w.Copied w' id mm addr len bytes ∨ w.Idle w' id := by
  cases next.moves with
  | answered | began => cases own
  | pinned found ran =>
    cases own
    obtain ⟨memory, records⟩ := own_idle tracks.good ran rfl (by simp)
    exact .inr ⟨memory, records, by simp⟩
  | puts found pins =>
    cases own
    exact .inr ⟨rfl, fun _ => rfl, by simp [setCall]⟩
  | @ran a k' reply allowed ran =>
    by_cases final : ∃ nomem, a = .opWrite id nomem
    · obtain ⟨nomem, rfl⟩ := final
      obtain ⟨kind, held, frames, found, outcome⟩ := opWrite_cases ran
      have same : kind = .poke mm addr len bytes :=
        Option.some.inj ((tracks.fits id _ found).asked.symm.trans asked)
      subst same
      rcases outcome with ⟨rfl, memory, pages⟩ | ⟨rfl, alive, memory, records⟩
      · refine .inr ⟨memory, fun p => ?_, by simp [noted, Call.writes]⟩
        simp only [pages]
      · refine .inl (tracks.copied asked found alive memory records ?_)
        intro p member absent
        simp only [Poking.recordable, found, all_eq_true] at recordable
        simpa [absent] using recordable p member
    · have early : ∀ nomem, a ≠ .opWrite id nomem := fun nomem same => final ⟨nomem, same⟩
      obtain ⟨memory, records⟩ := own_idle tracks.good ran own early
      refine .inr ⟨memory, records, ?_⟩
      cases a with
      | opReserve =>
        cases own
        simp [noted, Call.reserves]
      | opCheck =>
        cases own
        simp [noted]
      | opPin => rfl
      | opWrite other nomem =>
        cases own
        exact absurd rfl (early nomem)
      | opEnd =>
        cases own
        simp only [noted]
        split <;> simp
      | _ => cases own

/-! A call under way can always go on to its return. -/

abbrev OwnStep (id : Nat) : Poking → Label → Poking → Prop :=
  Guarded (fun _ label => label.of id) Step

def Finishes (w : Poking) (id : Nat) : Prop :=
  ∃ w', Reach (OwnStep id) w w' ∧ (w'.calls id).returned.isSome = true

theorem Finishes.after (label : Label) (own : label.of id) (next : Step w label w')
    (later : w'.Finishes id) : w.Finishes id := by
  obtain ⟨last, run, returned⟩ := later
  exact ⟨last, (Reach.refl.step ⟨own, next⟩).trans run, returned⟩

theorem Finishes.after_section (own : a.opId = some id) (allowed : w.allows a = true)
    (ran : step w.kernel a = some (k', reply))
    (later : (⟨k', w.noted k' reply a⟩ : Poking).Finishes id) : w.Finishes id := by
  have next : Step w (.section_ a) ⟨k', w.noted k' reply a⟩ := by
    simp only [Computed, next, allowed, if_true, run, ran, Option.map_some]
  exact Finishes.after (.section_ a) own next later

theorem release_finishes (found : w.kernel.ops id = some ⟨kind, todo, held, .ending result⟩)
    (put : (w.calls id).pins = []) : w.Finishes id := by
  have allowed : w.allows (.opEnd id) = true := by simp [allows, put]
  induction held generalizing w with
  | nil =>
    have ran : ∃ reply, step w.kernel (.opEnd id) = some (w.kernel.setOp id none, reply) := by
      simp only [Custody.step, opEnd, found]
      exact ⟨_, rfl⟩
    obtain ⟨reply, ran⟩ := ran
    refine Finishes.after_section rfl allowed ran ⟨_, .refl, ?_⟩
    simp [noted, found]
  | cons p rest ih =>
    have ran : step w.kernel (.opEnd id) = some
        (((w.kernel.setPage p (w.kernel.pages p).release).unpin p.mm).setOp id
          (some ⟨kind, todo, rest, .ending result⟩), .ok) := by
      simp only [Custody.step, opEnd, found]
    refine Finishes.after_section rfl allowed ran (ih ?_ ?_ ?_)
    · exact update_self ..
    · simp [noted, put]
    · simp [noted, allows, put]

theorem ending_finishes (found : w.kernel.ops id = some ⟨kind, todo, held, .ending result⟩) :
    w.Finishes id := by
  generalize put : (w.calls id).pins = pins
  induction pins generalizing w with
  | nil => exact release_finishes found put
  | cons frame rest ih =>
    have next : Step w (.put id) (w.setCall id { w.calls id with pins := rest }) := by
      simp [Computed, next, found, put]
    refine Finishes.after (.put id) rfl next (ih found ?_)
    simp [setCall]

theorem checked_finishes (found : w.kernel.ops id = some ⟨kind, [], held, .checked⟩) :
    w.Finishes id := by
  have next : Step w (.gup id (.error .EFAULT)) ⟨w.kernel.setOp id
      (some ⟨kind, [], held, .ending (some .EFAULT)⟩),
      update w.calls id { w.calls id with pins := [] }⟩ := by
    simp [Computed, next, found, gupPins, gupResult, run, Custody.step, opPin, opFail,
      setCall, noted]
  exact Finishes.after (.gup id (.error .EFAULT)) rfl next
    (ending_finishes (update_self ..))

theorem pinned_finishes (found : w.kernel.ops id = some ⟨kind, [], held, .pinned frames⟩) :
    w.Finishes id := by
  have ran : ∃ k' reply result, step w.kernel (.opWrite id []) = some (k', reply) ∧
      k'.ops id = some ⟨kind, [], held, .ending result⟩ := by
    simp only [Custody.step, opWrite, found, opFail]
    split
    · exact ⟨_, _, _, rfl, update_self ..⟩
    · exact ⟨_, _, _, rfl, update_self ..⟩
  obtain ⟨k', reply, result, ran, ends⟩ := ran
  exact Finishes.after_section rfl rfl ran (ending_finishes ends)

theorem reserving_finishes {p : Page} {rest : List Page}
    (found : w.kernel.ops id = some ⟨kind, p :: rest, held, .reserving⟩) : w.Finishes id := by
  have ran : ∃ errno, step w.kernel (.opReserve id true) = some (w.kernel.setOp id
      (some ⟨kind, p :: rest, held, .ending (some errno)⟩), .ok) := by
    simp only [Custody.step, opReserve, found, opFail, if_true]
    split
    · exact ⟨_, rfl⟩
    · split <;> exact ⟨_, rfl⟩
  obtain ⟨errno, ran⟩ := ran
  exact Finishes.after_section rfl rfl ran (ending_finishes (update_self ..))

theorem reserved_finishes (found : w.kernel.ops id = some ⟨kind, [], held, .reserving⟩) :
    w.Finishes id := by
  cases refused : (w.kernel.opTakes kind false).opRefusal ⟨kind, [], held, .reserving⟩ with
  | some result =>
    have ran : step w.kernel (.opCheck id false) = some ((w.kernel.opTakes kind false).setOp id
        (some ⟨kind, [], held, .ending result⟩), .ok) := by
      simp only [Custody.step, opCheck, found, refused]
    exact Finishes.after_section rfl rfl ran (ending_finishes (update_self ..))
  | none =>
    have ran : step w.kernel (.opCheck id false) = some ((w.kernel.opTakes kind false).setOp id
        (some ⟨kind, [], held, .checked⟩), .ok) := by
      simp only [Custody.step, opCheck, found, refused]
    exact Finishes.after_section rfl rfl ran (checked_finishes (update_self ..))

theorem finishes (complete : op.pc.passed = true → op.todo = [])
    (found : w.kernel.ops id = some op) : w.Finishes id := by
  obtain ⟨kind, todo, held, pc⟩ := op
  cases pc with
  | ending result => exact ending_finishes found
  | checked =>
    cases complete rfl
    exact checked_finishes found
  | pinned frames =>
    cases complete rfl
    exact pinned_finishes found
  | reserving =>
    cases todo with
    | cons p rest => exact reserving_finishes found
    | nil => exact reserved_finishes found

/-! The contract. -/

/-- What a write into another address space owes its caller. -/
structure Exact (w : Poking) : Prop where
  /-- A request that returns at once returns an error, or zero for no bytes, and has no effect. -/
  answered : ∀ request nomem copied mm answer, ctlMem request nomem copied mm = .returns answer →
    next w (.poke request nomem copied mm) = some w ∧
    ((∃ errno, answer = .error errno) ∨
      answer = .ok 0 ∧ ∃ m, request = some m ∧ m.len = 0)
  /-- A request that goes on asks for its first page of bytes at its address. -/
  admitted : ∀ request nomem copied mm kind, ctlMem request nomem copied mm = .begins kind →
    ∃ m space, request = some m ∧ mm = some space ∧
      kind = .poke space m.addr.toNat (min m.len.toNat 4096) m.bytes
  /-- A write has at most a page of bytes, on one page or two, those of its bytes. -/
  touches : ∀ id mm addr len bytes, (w.calls id).asked = some (.poke mm addr len bytes) →
    0 < len ∧ len ≤ 4096 ∧ addr + len < 2 ^ 64 ∧
    ((OpKind.poke mm addr len bytes).pages.length = 1 ∨
      (OpKind.poke mm addr len bytes).pages.length = 2) ∧
    ∀ p, p ∈ (OpKind.poke mm addr len bytes).pages ↔ ∃ i, i < len ∧ p = ⟨mm, (addr + i) / 4096⟩
  /-- Every step of a write stores all of its bytes and records its pages, or does nothing, if the
  final section can record the pages it writes. -/
  steps : ∀ id mm addr len bytes, (w.calls id).asked = some (.poke mm addr len bytes) →
    ∀ label w', label.of id → w.recordable label = true → Step w label w' →
      w.Copied w' id mm addr len bytes ∨ w.Idle w' id
  /-- A write returns its length if it has stored its bytes, once, and an error otherwise. -/
  outcome : ∀ id mm addr len bytes, (w.calls id).asked = some (.poke mm addr len bytes) →
    ∀ answer, (w.calls id).returned = some answer →
      answer = .ok len ∧ (w.calls id).copies = 1 ∨
      ∃ errno, answer = .error errno ∧ (w.calls id).copies = 0
  /-- From its check to its copy a write has its pages to itself: this side holds them, nobody else
  has reserved them, and no step of anybody else changes their records or reservations, unless it
  erases the page. -/
  alone : ∀ id op, w.kernel.ops id = some op → op.kind.pokes = true → op.pc.passed = true →
    ∀ p, p ∈ op.kind.pages → (w.kernel.pages p).record.state.here = true ∧
      (∀ h, w.kernel.Holds h p ↔ h = .guard id) ∧
      ∀ label w', ¬ label.of id → ¬ label.erases p → Step w label w' →
        (w'.kernel.pages p).record = (w.kernel.pages p).record ∧
        (w'.kernel.pages p).entry = (w.kernel.pages p).entry
  /-- The frames it pinned stay mapped where they were pinned, unless the page is erased. -/
  mapped : ∀ id op, w.kernel.ops id = some op → ∀ frames, op.pc = .pinned frames →
    ∀ p frame, (p, frame) ∈ op.kind.pages.zip frames →
      (w.kernel.pages p).erasures = (w.calls id).births p → (w.kernel.pages p).frame = some frame
  /-- A write that has returned holds no frame and no reservation. -/
  released : ∀ id, (w.calls id).returned.isSome = true → (w.calls id).asked.isSome = true →
    (w.calls id).pins = [] ∧ ∀ p, ¬ w.kernel.Holds (.guard id) p ∧
      ∀ cancelled, (w.kernel.pages p).entry ≠ some ⟨.guard id, cancelled⟩
  /-- One that has not returned can go on until it does. -/
  finishes : ∀ id, (w.calls id).asked.isSome = true → (w.calls id).returned = none →
    w.Finishes id

theorem Tracks.alone (tracks : w.Tracks) (found : w.kernel.ops id = some op) (member : p ∈ op.held)
    (other : ¬ label.of id) (unerased : ¬ label.erases p) (next : Step w label w') :
    (w'.kernel.pages p).record = (w.kernel.pages p).record ∧
      (w'.kernel.pages p).entry = (w.kernel.pages p).entry := by
  have holds : w.kernel.Holds (.guard id) p := ⟨op, found, member⟩
  have quiet {a : Act} {k' : Kernel} {reply : Reply}
      (ran : Custody.step w.kernel a = some (k', reply)) (apart : a.opId ≠ some id)
      (kept : ¬ a.erases p) : (k'.pages p).record = (w.kernel.pages p).record ∧
        (k'.pages p).entry = (w.kernel.pages p).entry := by
    cases guarded_moves tracks.good holds ran with
    | quiet page => exact ⟨(PageState.core_eq.mp page).1, (PageState.core_eq.mp page).2.1⟩
    | erased inRange => exact absurd inRange kept
    | wrote own | released own =>
      rw [own] at apart
      exact absurd rfl apart
  cases next.moves with
  | answered | puts => exact ⟨rfl, rfl⟩
  | began _ ran => exact quiet ran (by simp [Act.opId]) (by simp [Act.erases])
  | @pinned other' frames op' k' reply found' ran =>
    refine quiet ran ?_ (by simp [Act.erases])
    intro same
    exact other (Option.some.inj same)
  | ran _ ran => exact quiet ran other unerased

theorem Tracks.exact_ (tracks : w.Tracks) : w.Exact where
  answered request nomem copied mm answer returns := by
    have spec := ctlMem_spec request nomem copied mm
    rw [returns] at spec
    refine ⟨by simp only [next, returns], ?_⟩
    cases answer with
    | error errno => exact .inl ⟨errno, rfl⟩
    | ok n =>
      obtain ⟨rfl, empty⟩ := spec
      exact .inr ⟨rfl, empty⟩
  admitted request nomem copied mm kind begins := by
    have spec := ctlMem_spec request nomem copied mm
    rw [begins] at spec
    exact spec.2
  touches id mm addr len bytes asked := by
    have sized := tracks.sized id _ asked
    exact ⟨sized.1, sized.2.1, sized.2.2, poke_pages sized⟩
  steps id mm addr len bytes asked label w' own recordable next :=
    tracks.all_or_nothing asked own recordable next
  outcome id mm addr len bytes asked answer returned := by
    cases found : w.kernel.ops id with
    | some op =>
      rw [(tracks.fits id op found).running] at returned
      cases returned
    | none =>
      obtain ⟨-, answer', same, spec⟩ := tracks.over_ id _ asked found
      cases same.symm.trans returned
      exact spec rfl
  alone id op found poke passed p own := by
    have fits := tracks.fits id op found
    have member := fits.holds tracks.good found passed own
    refine ⟨(fits.here poke passed p member).1, ?_, ?_⟩
    · intro h
      have named : w.kernel.table p = some (.guard id) := by
        simp [Kernel.table, (fits.marked p member).2]
      rw [← tracks.good.agreed, named, Option.some.injEq]
      exact eq_comm
    · intro label w' other unerased next
      exact tracks.alone found member other unerased next
  mapped id op found frames at_ := ((tracks.fits id op found).pinned frames at_).2.2
  released id returned asked := by
    obtain ⟨kind, asked⟩ := Option.isSome_iff_exists.mp asked
    cases found : w.kernel.ops id with
    | some op =>
      rw [(tracks.fits id op found).running] at returned
      cases returned
    | none =>
      refine ⟨(tracks.over_ id kind asked found).1, ?_⟩
      intro p
      have free : ¬ w.kernel.Holds (.guard id) p := by
        rintro ⟨op, under, -⟩
        cases found.symm.trans under
      refine ⟨free, ?_⟩
      intro cancelled entry
      apply free
      rw [← tracks.good.agreed, Kernel.table, entry]
      rfl
  finishes id asked running := by
    obtain ⟨kind, asked⟩ := Option.isSome_iff_exists.mp asked
    cases found : w.kernel.ops id with
    | some op => exact Poking.finishes (tracks.fits id op found).complete found
    | none =>
      obtain ⟨-, answer, returned, -⟩ := tracks.over_ id kind asked found
      cases running.symm.trans returned

theorem Tracks.start (memory : Nat → PageBytes) (pins traceId monTgid tgid : Nat → Nat) :
    (start (Kernel.start memory pins traceId monTgid tgid)).Tracks where
  good := Kernel.Good.start memory pins traceId monTgid tgid
  fits _ _ found := by cases found
  over_ _ _ asked := by cases asked
  sized _ _ asked := by cases asked
  fresh _ _ := rfl

/-- The first call wrote eight bytes to the first page, once, and returned their number. -/
def wrote (w : Poking) : Bool :=
  (w.calls 1).asked.any (fun kind => kind.pokes && kind.pages == [⟨0, 0⟩]) &&
    ((w.calls 1).returned.any (fun answer => answer.toOption == some 8) && (w.calls 1).copies == 1)

/-- Without an entry for a page that has no record, a write stores its bytes and returns its length,
and the page is not recorded as held here, although nothing erased it. And where a discard is noted
before the write reserves the page and carried out after the write pinned it, the write returns its
length, nothing erased the page since its reservation, and no frame is mapped there. -/
theorem poke_unrecorded_or_unmapped :
    (∃ w, Reach Step (start Kernel.boot) w ∧ w.wrote = true ∧
      (w.kernel.pages ⟨0, 0⟩).record.state = .none ∧ (w.kernel.pages ⟨0, 0⟩).erasures = 0) ∧
    ∃ w, Reach (Guarded (fun w label => w.recordable label = true) Step)
        (start Kernel.boot) w ∧ w.wrote = true ∧
      (w.kernel.pages ⟨0, 0⟩).erasures = (w.calls 1).births ⟨0, 0⟩ ∧
      (w.kernel.pages ⟨0, 0⟩).frame = none := by
  constructor
  · have ran : (exec next (start Kernel.boot)
        [.poke (some ⟨16, 8, fun _ => 1⟩) false true (some 0), .section_ (.opReserve 1 false),
          .section_ (.opCheck 1 false), .gup 1 (.ok [5]), .section_ (.opWrite 1 [⟨0, 0⟩]), .put 1,
          .section_ (.opEnd 1), .section_ (.opEnd 1)]).any (fun w =>
        w.wrote && ((w.kernel.pages ⟨0, 0⟩).record.state == .none &&
          (w.kernel.pages ⟨0, 0⟩).erasures == 0)) = true := by decide +kernel
    obtain ⟨w, run, passes⟩ := exec_exhibits ran
    simp only [Bool.and_eq_true, beq_iff_eq] at passes
    exact ⟨w, run, passes⟩
  · have ran : (exec (fun w label => if w.recordable label then next w label else none)
        (start Kernel.boot)
        [.section_ (.erase 0 0 0), .poke (some ⟨16, 8, fun _ => 1⟩) false true (some 0),
          .section_ (.opReserve 1 false), .section_ (.opCheck 1 false), .gup 1 (.ok [5]),
          .section_ (.zap 0 0 0), .section_ (.opWrite 1 []), .put 1, .section_ (.opEnd 1),
          .section_ (.opEnd 1)]).any (fun w =>
        w.wrote && ((w.kernel.pages ⟨0, 0⟩).erasures == (w.calls 1).births ⟨0, 0⟩ &&
          (w.kernel.pages ⟨0, 0⟩).frame == none)) = true := by decide +kernel
    obtain ⟨w, run, passes⟩ := exec_exhibits_guarded ran
    simp only [Bool.and_eq_true, beq_iff_eq] at passes
    exact ⟨w, run, passes⟩

/-- In every run in which no page goes from the page tables while a write has it pinned under a
reservation in force, the writes of the monitor are all or nothing: each stores all of its bytes,
into frames mapped where they were pinned, on pages it had to itself and that nothing erased, and
leaves them recorded as held here with their generations, if its final section can record them; or
it stores nothing, changes no record and returns an error. Whatever it held is released. -/
theorem poke_all_or_nothing {memory : Nat → PageBytes} {pins traceId monTgid tgid : Nat → Nat}
    (run : Reach (Guarded (fun w label => w.unzapped label = true) Step)
      (start (Kernel.start memory pins traceId monTgid tgid)) w) : w.Exact :=
  (run.invariant (fun _ _ _ tracks next => tracks.step next.1 next.2)
    (Tracks.start ..)).exact_

/-- A write of eight bytes across two pages, between whose sections a fault has to wait and a recall
is refused, stores its bytes and leaves both pages recorded. Another write, whose page is discarded
after it was pinned, stores nothing. -/
theorem poke_all_or_nothing_across : ∃ w : Poking, w.Exact ∧
    (w.calls 1).asked.any (fun kind => kind.pages == [⟨0, 0⟩, ⟨0, 1⟩]) = true ∧
    (w.calls 1).returned.any (fun answer => answer.toOption == some 8) = true ∧
    (w.kernel.pages ⟨0, 0⟩).record.state = .home ∧ (w.kernel.pages ⟨0, 1⟩).record.state = .home ∧
    w.kernel.memory 5 4095 = 1 ∧ w.kernel.memory 6 0 = 1 ∧ w.kernel.memory 6 4 = 0 ∧
    (w.calls 2).returned.any (fun answer => !answer.toBool) = true ∧
    w.kernel.memory 7 16 = 0 := by
  have ran : (exec (fun w label => if w.unzapped label then next w label else none)
      (start Kernel.boot)
      [.poke (some ⟨4092, 8, fun _ => 1⟩) false true (some 0), .section_ (.opReserve 1 false),
        .section_ (.opReserve 1 false), .section_ (.claim 9 ⟨0, 1⟩ true false),
        .section_ (.opCheck 1 false), .section_ (.recallBegin 9 ⟨0, 0⟩ true false),
        .gup 1 (.ok [5, 6]), .section_ (.opWrite 1 []), .put 1, .put 1, .section_ (.opEnd 1),
        .section_ (.opEnd 1), .section_ (.opEnd 1),
        .poke (some ⟨8208, 8, fun _ => 1⟩) false true (some 0), .section_ (.opReserve 2 false),
        .section_ (.opCheck 2 false), .gup 2 (.ok [7]), .section_ (.erase 0 2 2),
        .section_ (.zap 0 2 2), .section_ (.opWrite 2 []), .put 2, .section_ (.opEnd 2),
        .section_ (.opEnd 2)]).any (fun w =>
      (w.calls 1).asked.any (fun kind => kind.pages == [⟨0, 0⟩, ⟨0, 1⟩]) &&
        ((w.calls 1).returned.any (fun answer => answer.toOption == some 8) &&
          ((w.kernel.pages ⟨0, 0⟩).record.state == .home &&
            ((w.kernel.pages ⟨0, 1⟩).record.state == .home && (w.kernel.memory 5 4095 == 1 &&
              (w.kernel.memory 6 0 == 1 && (w.kernel.memory 6 4 == 0 &&
                ((w.calls 2).returned.any (fun answer => !answer.toBool) &&
                  w.kernel.memory 7 16 == 0)))))))) = true := by
    decide +kernel
  obtain ⟨w, run, passes⟩ := exec_exhibits_guarded ran
  simp only [Bool.and_eq_true, beq_iff_eq] at passes
  exact ⟨w, poke_all_or_nothing run, passes⟩

end Poking

end Vmctx.Custody
