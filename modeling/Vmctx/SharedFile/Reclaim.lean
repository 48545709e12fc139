import Vmctx.SharedFile.Ranges
/-!
# Reclaiming shared file pages

`sh_file_reclaim` and `sh_file_reclaim_held` walk the table by index and release its lock around the
work on each row. Another thread that forgets a range moves the last row into a slot that may lie
behind the walk, and the walk ends without having seen it. Where nothing behind the walk is
forgotten, every row that is there at the end has been worked on.
-/

namespace Vmctx.SharedFile

open Table Vmctx.System List

/-- What the walk is for: the range of an `msync` or `munmap`, or whatever the guest holds. -/
inductive Task
  | reclaim (addr len : Nat)
  | held
  deriving DecidableEq, Repr

inductive Stage
  | idle
  | looks (i : Nat)
  | pulls (i p e : Nat)
  | scans (i s e : Nat)
  | returned (final : List Range)
  deriving DecidableEq, Repr

def Stage.behind : Stage → Nat
  | .looks i => i
  | .pulls i _ _ => i + 1
  | .scans i _ _ => i + 1
  | _ => 0

/-- The table and a walk over it. -/
structure Walk where
  rows : List Range
  as : Nat
  task : Task
  stage : Stage
  pulled : List Nat
  scanned : List (Nat × Nat)
  deriving DecidableEq, Repr

inductive WalkAct
  | call (c : Call)
  | reclaim (as addr len : Nat)
  | held (as : Nat)
  | look
  | pull
  | scan
  deriving DecidableEq, Repr

namespace Walk

def new : Walk := ⟨[], 0, .held, .idle, [], []⟩

def free (w : Walk) : Bool :=
  match w.stage with
  | .idle | .returned _ => true
  | _ => false

def look (w : Walk) (i : Nat) : Stage :=
  match w.rows[i]? with
  | none => .returned w.rows
  | some row =>
    if row.as ≠ w.as then .looks (i + 1)
    else
      match w.task with
      | .reclaim addr len =>
        let lo := pageDown addr
        let hi := pageUp (addr + len)
        if row.stop ≤ lo ∨ hi ≤ row.start then .looks (i + 1)
        else .pulls i (max row.start lo) (min row.stop hi)
      | .held => .scans i row.start row.stop

/-- A call on the table, or a step of `sh_file_reclaim` or `sh_file_reclaim_held`. -/
def next (w : Walk) : WalkAct → Option Walk
  | .call c => (apply w.rows c).map fun rows => { w with rows }
  | .reclaim as addr len =>
    if w.free then
      some { w with
        as
        task := .reclaim addr len
        stage := if len = 0 then .idle else .looks 0
        pulled := []
        scanned := [] }
    else none
  | .held as =>
    if w.free then
      some { w with
        as
        task := .held
        stage := if w.rows.isEmpty then .returned w.rows else .looks 0
        pulled := []
        scanned := [] }
    else none
  | .look =>
    match w.stage with
    | .looks i => some { w with stage := w.look i }
    | _ => none
  | .pull =>
    match w.stage with
    | .pulls i p e =>
      if p < e then some { w with stage := .pulls i (p + 4096) e, pulled := p :: w.pulled }
      else some { w with stage := .looks (i + 1) }
    | _ => none
  | .scan =>
    match w.stage with
    | .scans i s e => some { w with stage := .looks (i + 1), scanned := (s, e) :: w.scanned }
    | _ => none

end Walk

/-- No range behind the walk is forgotten, and the end of a range to reclaim, rounded up, does not
wrap. -/
def Ahead (w : Walk) : WalkAct → Prop
  | .call c => c.note = false → ∀ row ∈ w.rows.take w.stage.behind, cut c row = .keep
  | .reclaim _ addr len => addr + len + 4095 < 2 ^ 64
  | _ => True

instance (w : Walk) : (act : WalkAct) → Decidable (Ahead w act)
  | .call c => inferInstanceAs (Decidable (c.note = false →
      ∀ row ∈ w.rows.take w.stage.behind, cut c row = .keep))
  | .reclaim _ addr len => inferInstanceAs (Decidable (addr + len + 4095 < 2 ^ 64))
  | .held _ | .look | .pull | .scan => isTrue trivial

/-! ## The invariant -/

def Walk.Worked (w : Walk) (row : Range) : Prop :=
  match w.task with
  | .reclaim addr len => ∀ x, x % 4096 = 0 → pageDown addr ≤ x → x < pageUp (addr + len) →
      row.start ≤ x → x < row.stop →
      x ∈ w.pulled ∨ ∃ i p e, w.stage = .pulls i p e ∧ p ≤ x ∧ x < e
  | .held => (row.start, row.stop) ∈ w.scanned ∨ ∃ i, w.stage = .scans i row.start row.stop

structure Walk.Good (w : Walk) : Prop where
  pages : ∀ row ∈ w.rows, row.start % 4096 = 0 ∧ row.stop % 4096 = 0
  fits : ∀ addr len, w.task = .reclaim addr len → addr + len + 4095 < 2 ^ 64
  next : ∀ i p e, w.stage = .pulls i p e → p % 4096 = 0
  inside : w.stage.behind ≤ w.rows.length
  behind : ∀ row ∈ w.rows.take w.stage.behind, row.as = w.as → w.Worked row
  returned : ∀ final, w.stage = .returned final → ∀ row ∈ final, row.as = w.as → w.Worked row

variable {w w' : Walk} {act : WalkAct} {rows after : List Range} {c : Call}

theorem pageDown_mod (a : Nat) : pageDown a % 4096 = 0 := by
  simp only [pageDown]
  omega

theorem pageUp_mod (a : Nat) : pageUp a % 4096 = 0 := by
  simp only [pageUp]
  omega

theorem apply_pages (pages : ∀ row ∈ rows, row.start % 4096 = 0 ∧ row.stop % 4096 = 0)
    (step : apply rows c = some after) :
    ∀ row ∈ after, row.start % 4096 = 0 ∧ row.stop % 4096 = 0 := by
  simp only [apply] at step
  split at step
  · cases step
    simp only [note]
    split
    · exact pages
    · split
      · exact pages
      · split
        · intro row member
          obtain old | new := mem_append.mp member
          · exact pages row old
          · cases mem_singleton.mp new
            exact ⟨pageDown_mod _, pageUp_mod _⟩
        · exact pages
  · obtain ⟨out, ran, left⟩ := @forget_front rows c [] fun _ here => absurd here not_mem_nil
    cases ran.symm.trans step
    intro piece member
    obtain old | part := left piece member
    · exact pages piece old
    · obtain ⟨row, old, part⟩ := mem_flatMap.mp part
      have aligned := pages row old
      simp only [cut] at part
      split at part
      · cases mem_singleton.mp part
        exact aligned
      · obtain low | high := mem_append.mp part
        · split at low
          · cases mem_singleton.mp low
            exact ⟨aligned.1, pageDown_mod _⟩
          · exact absurd low not_mem_nil
        · split at high
          · cases mem_singleton.mp high
            exact ⟨pageUp_mod _, aligned.2⟩
          · exact absurd high not_mem_nil

theorem apply_front {count : Nat} (inside : count ≤ rows.length)
    (ahead : c.note = false → ∀ row ∈ rows.take count, cut c row = .keep)
    (step : apply rows c = some after) :
    after.take count = rows.take count ∧ count ≤ after.length := by
  have split : rows = rows.take count ++ rows.drop count := (take_append_drop ..).symm
  have length : (rows.take count).length = count := by
    rw [length_take]
    omega
  simp only [apply] at step
  split at step
  · cases step
    simp only [note]
    split
    · exact ⟨rfl, inside⟩
    · split
      · exact ⟨rfl, inside⟩
      · split
        · rw [take_append_of_le_length inside, length_append]
          exact ⟨rfl, by omega⟩
        · exact ⟨rfl, inside⟩
  · next forgets =>
    obtain ⟨out, ran, -⟩ := @forget_front (rows.drop count) c (rows.take count)
      (ahead (by simpa using forgets))
    rw [← split] at ran
    cases ran.symm.trans step
    rw [take_append_of_le_length (by omega), take_of_length_le (by omega),
      length_append]
    exact ⟨rfl, by omega⟩

variable {row : Range} {stage : Stage} {i : Nat}

/-- A range that is worked on stays so when what is pulled and scanned stays, and the pages and the
scan that its stage had left are done or left by the next stage. -/
theorem Walk.Worked.on {pulled : List Nat} {scanned : List (Nat × Nat)} (worked : w.Worked row)
    (was : ∀ x ∈ w.pulled, x ∈ pulled) (seen : ∀ x ∈ w.scanned, x ∈ scanned)
    (pages : ∀ i p e x, w.stage = .pulls i p e → x % 4096 = 0 → p ≤ x → x < e →
      x ∈ pulled ∨ ∃ i p e, stage = .pulls i p e ∧ p ≤ x ∧ x < e)
    (scans : ∀ i, w.stage = .scans i row.start row.stop → (row.start, row.stop) ∈ scanned) :
    Walk.Worked { w with stage, pulled, scanned } row := by
  simp only [Walk.Worked] at worked ⊢
  split at worked
  · intro x whole low high first last
    obtain old | ⟨i, p, e, here, lower, upper⟩ := worked x whole low high first last
    · exact .inl (was x old)
    · exact pages i p e x here whole lower upper
  · obtain old | ⟨i, here⟩ := worked
    · exact .inl (seen _ old)
    · exact .inl (scans i here)

theorem Walk.Worked.settled (worked : w.Worked row) (here : w.stage = .looks i) (stage : Stage) :
    Walk.Worked { w with stage } row :=
  worked.on (fun _ => id) (fun _ => id)
    (fun _ _ _ _ pulls => by rw [here] at pulls; cases pulls)
    fun _ scans => by rw [here] at scans; cases scans

theorem take_succ_mem {α : Type} {l : List α} {a b : α} (here : l[i]? = some a)
    (member : b ∈ l.take (i + 1)) : b ∈ l.take i ∨ b = a := by
  rw [take_add_one, here, Option.toList_some, mem_append, mem_singleton] at member
  exact member

theorem Walk.Good.pass (good : w.Good) (here : w.stage = .looks i) (there : w.rows[i]? = some row)
    (behind : stage.behind = i + 1) (pulls : ∀ j p e, stage = .pulls j p e → p % 4096 = 0)
    (goes : ∀ final, stage ≠ .returned final)
    (worked : row.as = w.as → Walk.Worked { w with stage } row) : Walk.Good { w with stage } := by
  obtain ⟨bound, -⟩ := List.getElem?_eq_some_iff.mp there
  exact { good with
    next := pulls
    inside := by
      show stage.behind ≤ w.rows.length
      omega
    behind := fun other member mine => by
      rw [behind] at member
      obtain old | rfl := take_succ_mem there member
      · exact (good.behind other (by rw [here]; exact old) mine).settled here stage
      · exact worked mine
    returned := fun final same => absurd same (goes final) }

theorem Walk.Good.look (good : w.Good) (here : w.stage = .looks i) :
    Walk.Good { w with stage := w.look i } := by
  simp only [Walk.look]
  split
  · next beyond =>
    have all : w.rows.take i = w.rows :=
      take_of_length_le (List.getElem?_eq_none_iff.mp beyond)
    exact { good with
      next := nofun
      inside := Nat.zero_le _
      behind := fun _ member => absurd member not_mem_nil
      returned := fun final same row member mine => by
        cases same
        have old : row ∈ w.rows.take w.stage.behind := by
          rw [here]
          show row ∈ w.rows.take i
          rw [all]
          exact member
        exact (good.behind row old mine).settled here _ }
  · next row there =>
    split
    · next other => exact good.pass here there rfl nofun nofun fun mine => absurd mine other
    · split
      · next addr len task =>
        split
        · next away =>
          refine good.pass here there rfl nofun nofun fun _ => ?_
          simp only [Walk.Worked, task]
          intro x _ low high first last
          omega
        · refine good.pass here there rfl ?_ nofun fun _ => ?_
          · rintro _ _ _ ⟨⟩
            have aligned := (good.pages row (mem_of_getElem? there)).1
            have range := pageDown_mod addr
            omega
          · simp only [Walk.Worked, task]
            intro x _ low high first last
            exact .inr ⟨_, _, _, rfl, by omega, by omega⟩
      · next task =>
        refine good.pass here there rfl nofun nofun fun _ => ?_
        simp only [Walk.Worked, task]
        exact .inr ⟨i, rfl⟩

theorem Walk.Good.pull (good : w.Good) (step : w.next .pull = some w') : w'.Good := by
  simp only [Walk.next] at step
  split at step
  · next i p e here =>
    have page := good.next i p e here
    have inside := good.inside
    rw [here] at inside
    have unscanned {row : Range} (j : Nat) (scans : w.stage = .scans j row.start row.stop) :
        (row.start, row.stop) ∈ w.scanned := by
      rw [here] at scans
      cases scans
    split at step
    · next more =>
      cases step
      exact { good with
        next := by
          rintro _ _ _ ⟨⟩
          omega
        inside := inside
        behind := fun row member mine => by
          refine (good.behind row (by rw [here]; exact member) mine).on
            (fun _ old => .tail _ old) (fun _ => id) (fun j q f x pulls whole lower upper => ?_)
            unscanned
          rw [here] at pulls
          cases pulls
          by_cases now : x = p
          · exact .inl (now ▸ mem_cons_self)
          · exact .inr ⟨_, _, _, rfl, by omega, upper⟩
        returned := nofun }
    · next through =>
      cases step
      exact { good with
        next := nofun
        inside := inside
        behind := fun row member mine => by
          refine (good.behind row (by rw [here]; exact member) mine).on
            (fun _ => id) (fun _ => id) (fun j q f x pulls whole lower upper => ?_) unscanned
          rw [here] at pulls
          cases pulls
          omega
        returned := nofun }
  · cases step

theorem Walk.Good.scan (good : w.Good) (step : w.next .scan = some w') : w'.Good := by
  simp only [Walk.next] at step
  split at step
  · next i s e here =>
    have inside := good.inside
    rw [here] at inside
    cases step
    exact { good with
      next := nofun
      inside := inside
      behind := fun row member mine => by
        refine (good.behind row (by rw [here]; exact member) mine).on
          (fun _ => id) (fun _ old => .tail _ old) (fun j q f x pulls => ?_) fun j scans => ?_
        · rw [here] at pulls
          cases pulls
        · rw [here] at scans
          cases scans
          exact mem_cons_self
      returned := nofun }
  · cases step

theorem Walk.Good.start {as : Nat} {task : Task} (good : w.Good)
    (fits : ∀ addr len, task = .reclaim addr len → addr + len + 4095 < 2 ^ 64)
    (begins : stage = .idle ∨ stage = .looks 0 ∨ stage = .returned []) :
    Walk.Good { w with as, task, stage, pulled := [], scanned := [] } := by
  have zero : stage.behind = 0 := by
    obtain rfl | rfl | rfl := begins <;> rfl
  exact { good with
    fits := fits
    next := by obtain rfl | rfl | rfl := begins <;> exact nofun
    inside := by
      show stage.behind ≤ w.rows.length
      omega
    behind := fun row member => by
      rw [zero] at member
      exact absurd member not_mem_nil
    returned := fun final same row member => by
      obtain rfl | rfl | rfl := begins
      · cases same
      · cases same
      · cases same
        exact absurd member not_mem_nil }

theorem Walk.Good.step (good : w.Good) (ahead : Ahead w act) (step : w.next act = some w') :
    w'.Good := by
  cases act with
  | call c =>
    obtain ⟨rows, ran, rfl⟩ := Option.map_eq_some_iff.mp step
    obtain ⟨same, inside⟩ := apply_front good.inside ahead ran
    exact { good with
      pages := apply_pages good.pages ran
      inside := inside
      behind := fun row member => good.behind row (same ▸ member) }
  | reclaim as addr len =>
    simp only [Walk.next] at step
    split at step
    · cases step
      refine good.start ?_ ?_
      · rintro _ _ ⟨⟩
        exact ahead
      · split
        · exact .inl rfl
        · exact .inr (.inl rfl)
    · cases step
  | held as =>
    simp only [Walk.next] at step
    split at step
    · cases step
      refine good.start nofun ?_
      split
      · next empty =>
        rw [isEmpty_iff.mp empty]
        exact .inr (.inr rfl)
      · exact .inr (.inl rfl)
    · cases step
  | look =>
    simp only [Walk.next] at step
    split at step
    · next i here =>
      cases step
      exact good.look here
    · cases step
  | pull => exact good.pull step
  | scan => exact good.scan step

theorem Walk.new_good : Walk.new.Good where
  pages _ here := absurd here not_mem_nil
  fits := nofun
  next := nofun
  inside := Nat.le_refl 0
  behind _ here := absurd here not_mem_nil
  returned := nofun

/-! ## What it gives -/

/-- What a walk that has returned has done. -/
structure Walk.Complete (w : Walk) : Prop where
  /-- A reclaim of `len` bytes at `addr` has pulled every recorded page that they touch. -/
  pulled : ∀ addr len final, w.task = .reclaim addr len → w.stage = .returned final →
    ∀ x, x % 4096 = 0 → addr < x + 4096 → x < addr + len → has final w.as x = true → x ∈ w.pulled
  /-- A reclaim of what is held has scanned every range that was recorded. -/
  scanned : ∀ final, w.task = .held → w.stage = .returned final →
    ∀ row ∈ final, row.as = w.as → (row.start, row.stop) ∈ w.scanned

/-- In every run in which no other thread forgets a range behind the walk and no range to reclaim
wraps, a walk that has returned has worked on every range that was recorded when it returned. -/
theorem reclaim_complete (run : Reach (Guarded Ahead (Computed Walk.next)) .new w) :
    w.Complete := by
  have good : w.Good := run.invariant (fun _ _ _ good step => good.step step.1 step.2) Walk.new_good
  constructor
  · intro addr len final task here x page low high recorded
    have fits := good.fits addr len task
    obtain ⟨row, member, mine, first, last⟩ := has_iff.mp recorded
    have worked := good.returned final here row member mine
    simp only [Walk.Worked, task, here] at worked
    simp only [pageDown, pageUp, Nat.mod_eq_of_lt fits] at worked
    obtain pulled | ⟨_, _, _, other, _⟩ := worked x page (by omega) (by omega) first last
    · exact pulled
    · cases other
  · intro final task here row member mine
    have worked := good.returned final here row member mine
    simp only [Walk.Worked, task, here] at worked
    obtain scanned | ⟨_, other⟩ := worked
    · exact scanned
    · cases other

def threeRanges : Walk :=
  { Walk.new with
    rows := [⟨1, 0x10000, 0x11000⟩, ⟨1, 0x20000, 0x21000⟩, ⟨1, 0x30000, 0x31000⟩] }

theorem threeRanges_noted : Reach (Guarded Ahead (Computed Walk.next)) .new
    threeRanges := by
  have ran : (exec (fun w act => if decide (Ahead w act) then w.next act else none) Walk.new
      [.call ⟨true, 1, 0x10000, 0x1000⟩, .call ⟨true, 1, 0x20000, 0x1000⟩,
        .call ⟨true, 1, 0x30000, 0x1000⟩]).any (fun w => decide (w = threeRanges)) = true := by
    decide
  obtain ⟨w, run, same⟩ := exec_exhibits_guarded ran
  cases of_decide_eq_true same
  exact run.mono fun _ _ _ step => ⟨of_decide_eq_true step.1, step.2⟩

/-- A range ahead of the walk is forgotten while another is pulled. -/
theorem reclaim_complete_ahead : ∃ w : Walk, w.Complete ∧
    w.stage = .returned [⟨1, 0x10000, 0x11000⟩, ⟨1, 0x30000, 0x31000⟩] ∧
    w.pulled = [0x30000, 0x10000] := by
  have ran : (exec (fun w act => if decide (Ahead w act) then w.next act else none)
      threeRanges [.reclaim 1 0x10000 0x30000, .look, .call ⟨false, 1, 0x20000, 0x1000⟩, .pull,
        .pull, .look, .pull, .pull, .look]).any (fun w => decide
      (w.stage = .returned [⟨1, 0x10000, 0x11000⟩, ⟨1, 0x30000, 0x31000⟩] ∧
        w.pulled = [0x30000, 0x10000])) = true := by
    decide
  obtain ⟨w, run, shape⟩ := exec_exhibits_guarded ran
  refine ⟨w, reclaim_complete (threeRanges_noted.trans ?_), of_decide_eq_true shape⟩
  exact run.mono fun _ _ _ step => ⟨of_decide_eq_true step.1, step.2⟩

def Recorded (w : Walk) (_ : WalkAct) : Prop := ⟨1, 0x30000, 0x31000⟩ ∈ w.rows

instance (w : Walk) (act : WalkAct) : Decidable (Recorded w act) :=
  inferInstanceAs (Decidable ((⟨1, 0x30000, 0x31000⟩ : Range) ∈ w.rows))

theorem recorded_exhibits {acts : List WalkAct} {shape : Walk → Prop} [DecidablePred shape]
    (ran : (exec (fun w act => if decide (Recorded w act) then w.next act else none)
      threeRanges acts).any (fun w => decide (shape w)) = true) :
    ∃ w : Walk, Reach (Guarded Recorded (Computed Walk.next)) threeRanges w ∧
      shape w := by
  obtain ⟨w, run, shown⟩ := exec_exhibits_guarded ran
  exact ⟨w, run.mono fun _ _ _ step => ⟨of_decide_eq_true step.1, step.2⟩, of_decide_eq_true shown⟩

/-- Another thread forgets the first range while its page is pulled; the third range is moved into
its place, and the walk returns without its page. So does the walk over what is held. And where the
end of the range wraps, the walk returns without any page. -/
theorem reclaim_misses :
    (∃ w : Walk, Reach (Guarded Recorded (Computed Walk.next)) threeRanges w ∧
      w.task = .reclaim 0x10000 0x30000 ∧
      w.stage = .returned [⟨1, 0x30000, 0x31000⟩, ⟨1, 0x20000, 0x21000⟩] ∧
      w.pulled = [0x20000, 0x10000]) ∧
    (∃ w : Walk, Reach (Guarded Recorded (Computed Walk.next)) threeRanges w ∧
      w.task = .held ∧
      w.stage = .returned [⟨1, 0x30000, 0x31000⟩, ⟨1, 0x20000, 0x21000⟩] ∧
      w.scanned = [(0x20000, 0x21000), (0x10000, 0x11000)]) ∧
    ∃ w : Walk, Reach (Guarded Recorded (Computed Walk.next)) threeRanges w ∧
      w.task = .reclaim 0x1000 (2 ^ 64 - 0x1001) ∧ w.stage = .returned threeRanges.rows ∧
      w.pulled = [] := by
  refine ⟨@recorded_exhibits [.reclaim 1 0x10000 0x30000, .look,
      .call ⟨false, 1, 0x10000, 0x1000⟩, .pull, .pull, .look, .pull, .pull, .look] _ _ ?_,
    @recorded_exhibits [.held 1, .look, .call ⟨false, 1, 0x10000, 0x1000⟩, .scan, .look, .scan,
      .look] _ _ ?_,
    @recorded_exhibits [.reclaim 1 0x1000 (2 ^ 64 - 0x1001), .look, .look, .look, .look] _ _ ?_⟩
  all_goals decide

end Vmctx.SharedFile
