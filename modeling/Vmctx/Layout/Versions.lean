import Vmctx.Layout.Construction
/-!
# Mapping records as versions

A row stands for one version at each of its addresses. Retiring a range removes exactly the versions
of the range, whichever way a row is cut; a note adds the versions of its range, and what it
replaces is of the range and not of a greater sequence.
-/

namespace Vmctx.Layout

open Table List

variable {t t' : Constructions} {rows : List Construction} {row : Construction} {v w : Version}
  {as start past upto a x i : Nat}

/-! ## What the rows say -/

theorem shift_add (op : Nat) (off : UInt64) (one two : Nat) :
    shift op (shift op off one) two = shift op off (one + two) := by
  simp only [shift]
  split
  · rw [UInt64.ofNat_add, UInt64.add_assoc]
  · rfl

def Construction.at_ (row : Construction) (x : Nat) : Version :=
  ⟨row.seq, row.order, row.op, row.prot, shift row.op row.off (x - row.start)⟩

def Construction.version (row : Construction) (as x : Nat) : Option Version :=
  if row.Covers as x then some (row.at_ x) else none

def Said (rows : List Construction) (as x : Nat) (v : Version) : Prop :=
  ∃ row ∈ rows, row.version as x = some v

theorem Construction.version_iff : row.version a x = some v ↔ row.Covers a x ∧ row.at_ x = v := by
  simp only [version]
  split
  · next here => exact ⟨fun same => ⟨here, Option.some.inj same⟩, fun same => congrArg some same.2⟩
  · next away => exact ⟨nofun, fun same => absurd same.1 away⟩

theorem Construction.version_free (free : row.seq = 0) : row.version a x = none :=
  if_neg fun covers => covers.2.1 free

theorem Construction.version_low (inside : start ≤ row.past) :
    Construction.version { row with past := start } a x = some v ↔
      row.version a x = some v ∧ x < start := by
  have covers : Construction.Covers { row with past := start } a x ↔
      row.Covers a x ∧ x < start := by
    simp only [Covers]
    omega
  rw [version_iff, version_iff, covers, and_right_comm]
  rfl

theorem Construction.version_high (inside : row.start ≤ past) :
    Construction.version
        { row with start := past, off := shift row.op row.off (past - row.start) } a x = some v ↔
      row.version a x = some v ∧ past ≤ x := by
  have covers : Construction.Covers
      { row with start := past, off := shift row.op row.off (past - row.start) } a x ↔
      row.Covers a x ∧ past ≤ x := by
    simp only [Covers]
    omega
  rw [version_iff, version_iff, covers, and_right_comm]
  refine and_congr_left fun above => and_congr_right fun _ => ?_
  have same : past - row.start + (x - past) = x - row.start := by omega
  simp only [at_, shift_add, same]

theorem Said.of_set {new : Construction} (said : Said (rows.set i new) a x v) :
    Said rows a x v ∨ new.version a x = some v := by
  obtain ⟨other, member, here⟩ := said
  obtain old | rfl := mem_or_eq_of_mem_set member
  · exact .inl ⟨other, old, here⟩
  · exact .inr here

theorem Said.set (new : Construction) (placed : rows[i]? = some row) (said : Said rows a x v) :
    Said (rows.set i new) a x v ∨ row.version a x = some v := by
  obtain ⟨other, member, here⟩ := said
  obtain ⟨k, found⟩ := mem_iff_getElem?.mp member
  by_cases same : i = k
  · subst same
    cases placed.symm.trans found
    exact .inr here
  · refine .inl ⟨other, mem_iff_getElem?.mpr ⟨k, ?_⟩, here⟩
    rw [List.getElem?_set_ne same, found]

theorem Said.new {new : Construction} (placed : rows[i]? = some row)
    (here : new.version a x = some v) : Said (rows.set i new) a x v := by
  refine ⟨new, mem_iff_getElem?.mpr ⟨i, ?_⟩, here⟩
  rw [List.getElem?_set_self (List.getElem?_eq_some_iff.mp placed).1]

/-! ## A free slot -/

structure IsSlot (t t' : Constructions) (i : Nat) : Prop where
  order : t'.order = t.order
  said : ∀ a x v, Said t'.rows a x v ↔ Said t.rows a x v
  free : ∃ free, t'.rows[i]? = some free ∧ free.seq = 0
  kept : ∀ (k : Nat) row, t.rows[k]? = some row → t'.rows[k]? = some row
  old : ∀ (k : Nat) row, t'.rows[k]? = some row → k ≠ i → t.rows[k]? = some row

theorem IsSlot.grown (capacity : Nat) :
    IsSlot t { t with rows := t.rows ++ [.free], capacity } t.rows.length := by
  refine ⟨rfl, fun a x v => ⟨?_, ?_⟩, ⟨.free, List.getElem?_concat_length, rfl⟩, ?_, ?_⟩
  · rintro ⟨row, member, here⟩
    obtain old | new := mem_append.mp member
    · exact ⟨row, old, here⟩
    · cases mem_singleton.mp new
      cases (Construction.version_free rfl).symm.trans here
  · rintro ⟨row, member, here⟩
    exact ⟨row, mem_append_left _ member, here⟩
  · intro k old placed
    exact (List.getElem?_append_left (List.getElem?_eq_some_iff.mp placed).1).trans placed
  · intro k row placed other
    have bound := (List.getElem?_eq_some_iff.mp placed).1
    rw [length_append, length_singleton] at bound
    exact (List.getElem?_append_left (by omega)).symm.trans placed

variable {memory : Bool}

theorem Constructions.slot_spec (given : t.slot memory = some (t', i)) : IsSlot t t' i := by
  simp only [slot] at given
  split at given
  · next found =>
    cases given
    obtain ⟨inside, zero, -⟩ := List.findIdx?_eq_some_iff_getElem.mp found
    exact ⟨rfl, fun _ _ _ => .rfl, ⟨_, List.getElem?_eq_getElem inside, of_decide_eq_true zero⟩,
      fun _ _ placed => placed, fun _ _ placed _ => placed⟩
  · split at given
    · obtain ⟨-, same⟩ := Option.ite_none_right_eq_some.mp given
      cases same
      exact .grown _
    · cases given
      exact .grown _

/-! ## Retiring a range -/

def Killed (as start past upto a x : Nat) (v : Version) : Prop :=
  a = as ∧ start ≤ x ∧ x < past ∧ Versions.retires upto v = true

def Clean (as start past upto : Nat) (row : Construction) : Prop :=
  ∀ a x v, row.version a x = some v → ¬Killed as start past upto a x v

structure CutAt (as start past upto i : Nat) (t t' : Constructions) : Prop where
  order : t'.order = t.order
  old : ∀ a x v, Said t'.rows a x v → Said t.rows a x v
  kept : ∀ a x v, Said t.rows a x v → ¬Killed as start past upto a x v → Said t'.rows a x v
  clean : ∀ (k : Nat) row, t'.rows[k]? = some row →
    k ≠ i ∧ t.rows[k]? = some row ∨ Clean as start past upto row

theorem CutAt.replace {new : Construction} (placed : t.rows[i]? = some row)
    (part : ∀ a x v, new.version a x = some v ↔
      row.version a x = some v ∧ ¬Killed as start past upto a x v) :
    CutAt as start past upto i t { t with rows := t.rows.set i new } := by
  refine ⟨rfl, ?_, ?_, ?_⟩
  · intro a x v said
    obtain old | here := said.of_set
    · exact old
    · exact ⟨row, mem_of_getElem? placed, ((part a x v).mp here).1⟩
  · intro a x v said alive
    obtain still | here := Said.set new placed said
    · exact still
    · exact Said.new placed ((part a x v).mpr ⟨here, alive⟩)
  · intro k other found
    by_cases same : i = k
    · subst same
      rw [List.getElem?_set_self (List.getElem?_eq_some_iff.mp placed).1] at found
      cases found
      exact .inr fun a x v here => ((part a x v).mp here).2
    · rw [List.getElem?_set_ne same] at found
      exact .inl ⟨Ne.symm same, found⟩

theorem CutAt.skip (placed : t.rows[i]? = some row) (clean : Clean as start past upto row) :
    CutAt as start past upto i t t := by
  refine ⟨rfl, fun _ _ _ said => said, fun _ _ _ said _ => said, fun k other found => ?_⟩
  by_cases same : k = i
  · subst same
    cases placed.symm.trans found
    exact .inr clean
  · exact .inl ⟨same, found⟩

theorem clean_of_skipped (skipped : row.as ≠ as ∨ row.seq = 0 ∨ row.past ≤ start ∨
      past ≤ row.start ∨ upto ≠ 0 ∧ upto ≤ row.seq) : Clean as start past upto row := by
  rintro a x v here ⟨mine, low, high, retired⟩
  obtain ⟨⟨space, live, first, last⟩, rfl⟩ := Construction.version_iff.mp here
  have retired : upto = 0 ∨ row.seq < upto := of_decide_eq_true retired
  omega

theorem alive_iff (near : ¬(row.as ≠ as ∨ row.seq = 0 ∨ row.past ≤ start ∨ past ≤ row.start ∨
      upto ≠ 0 ∧ upto ≤ row.seq)) (here : row.version a x = some v) :
    ¬Killed as start past upto a x v ↔ x < start ∨ past ≤ x := by
  obtain ⟨⟨space, live, first, last⟩, rfl⟩ := Construction.version_iff.mp here
  have retired : Versions.retires upto (row.at_ x) = true :=
    decide_eq_true (show upto = 0 ∨ row.seq < upto by omega)
  simp only [Killed, retired, and_true]
  omega

theorem CutAt.divide {t₁ : Constructions} {right : Nat} {low high : Construction}
    (slot : IsSlot t t₁ right) (placed : t.rows[i]? = some row) (live : row.seq ≠ 0)
    (lower : ∀ a x v, low.version a x = some v ↔ row.version a x = some v ∧ x < start)
    (upper : ∀ a x v, high.version a x = some v ↔ row.version a x = some v ∧ past ≤ x)
    (alive : ∀ a x v, row.version a x = some v →
      (¬Killed as start past upto a x v ↔ x < start ∨ past ≤ x)) :
    CutAt as start past upto i t { t₁ with rows := (t₁.rows.set i low).set right high } := by
  obtain ⟨free, vacant, zero⟩ := slot.free
  have here₁ := slot.kept i row placed
  have different : i ≠ right := by
    rintro rfl
    cases here₁.symm.trans vacant
    exact live zero
  have vacant₁ : (t₁.rows.set i low)[right]? = some free := by
    rw [List.getElem?_set_ne different, vacant]
  have stays (a x : Nat) (v : Version) (said : Said (t₁.rows.set i low) a x v) :
      Said ((t₁.rows.set i low).set right high) a x v := by
    obtain still | none := Said.set high vacant₁ said
    · exact still
    · cases (Construction.version_free zero).symm.trans none
  refine ⟨slot.order, ?_, ?_, ?_⟩
  · intro a x v said
    obtain said | here := said.of_set
    · obtain said | here := said.of_set
      · exact (slot.said a x v).mp said
      · exact ⟨row, mem_of_getElem? placed, ((lower a x v).mp here).1⟩
    · exact ⟨row, mem_of_getElem? placed, ((upper a x v).mp here).1⟩
  · intro a x v said survives
    obtain still | here := Said.set low here₁ ((slot.said a x v).mpr said)
    · exact stays a x v still
    · obtain below | above := (alive a x v here).mp survives
      · exact stays a x v (Said.new here₁ ((lower a x v).mpr ⟨here, below⟩))
      · exact Said.new vacant₁ ((upper a x v).mpr ⟨here, above⟩)
  · intro k other found
    by_cases inRight : right = k
    · subst inRight
      rw [List.getElem?_set_self (List.getElem?_eq_some_iff.mp vacant₁).1] at found
      cases found
      refine .inr fun a x v here => ?_
      obtain ⟨old, above⟩ := (upper a x v).mp here
      exact (alive a x v old).mpr (.inr above)
    · rw [List.getElem?_set_ne inRight] at found
      by_cases inPlace : i = k
      · subst inPlace
        rw [List.getElem?_set_self (List.getElem?_eq_some_iff.mp here₁).1] at found
        cases found
        refine .inr fun a x v here => ?_
        obtain ⟨old, below⟩ := (lower a x v).mp here
        exact (alive a x v old).mpr (.inl below)
      · rw [List.getElem?_set_ne inPlace] at found
        exact .inl ⟨Ne.symm inPlace, slot.old k other found (Ne.symm inRight)⟩

theorem Constructions.killRow_cuts (placed : t.rows[i]? = some row)
    (cut : t.killRow as start past upto memory i row = some t') :
    CutAt as start past upto i t t' := by
  simp only [killRow] at cut
  split at cut
  · next skipped =>
    cases cut
    exact .skip placed (clean_of_skipped skipped)
  · next near =>
    have alive (a x : Nat) (v : Version) (here : row.version a x = some v) := alive_iff near here
    split at cut
    · next both =>
      obtain ⟨⟨t₁, right⟩, given, rfl⟩ := Option.map_eq_some_iff.mp cut
      exact .divide (slot_spec given) placed (by omega)
        (fun a x v => Construction.version_low (by omega))
        (fun a x v => Construction.version_high (by omega)) alive
    · next notBoth =>
      split at cut
      · next below =>
        cases cut
        refine .replace placed fun a x v => ?_
        rw [Construction.version_low (by omega)]
        refine and_congr_right fun here => ?_
        obtain ⟨⟨-, -, -, last⟩, -⟩ := Construction.version_iff.mp here
        rw [alive a x v here]
        omega
      · next notBelow =>
        split at cut
        · next above =>
          cases cut
          refine .replace placed fun a x v => ?_
          rw [Construction.version_high (by omega)]
          refine and_congr_right fun here => ?_
          obtain ⟨⟨-, -, first, -⟩, -⟩ := Construction.version_iff.mp here
          rw [alive a x v here]
          omega
        · next inside =>
          cases cut
          refine .replace placed fun a x v => ?_
          rw [Construction.version_free rfl]
          refine ⟨nofun, fun both => ?_⟩
          obtain ⟨⟨-, -, first, last⟩, -⟩ := Construction.version_iff.mp both.1
          have outside := (alive a x v both.1).mp both.2
          omega

theorem Constructions.killFrom_spec {n : Nat} (count : Nat) (bound : i + count = n)
    (clean : ∀ (k : Nat) row, t.rows[k]? = some row → k < i ∨ n ≤ k → Clean as start past upto row)
    (ran : killFrom as start past upto memory count i t = some t') :
    t'.order = t.order ∧ (∀ a x v, Said t'.rows a x v → Said t.rows a x v) ∧
      (∀ a x v, Said t.rows a x v → ¬Killed as start past upto a x v → Said t'.rows a x v) ∧
      ∀ row ∈ t'.rows, Clean as start past upto row := by
  induction count generalizing i t with
  | zero =>
    cases ran
    refine ⟨rfl, fun _ _ _ said => said, fun _ _ _ said _ => said, fun row member => ?_⟩
    obtain ⟨k, found⟩ := mem_iff_getElem?.mp member
    exact clean k row found (by omega)
  | succ count ih =>
    rw [killFrom] at ran
    split at ran
    · next beyond =>
      cases ran
      refine ⟨rfl, fun _ _ _ said => said, fun _ _ _ said _ => said, fun row member => ?_⟩
      obtain ⟨k, found⟩ := mem_iff_getElem?.mp member
      have inside := (List.getElem?_eq_some_iff.mp found).1
      have outside := List.getElem?_eq_none_iff.mp beyond
      exact clean k row found (by omega)
    · next row placed =>
      obtain ⟨t₁, cut, rest⟩ := Option.bind_eq_some_iff.mp ran
      have cuts := killRow_cuts placed cut
      obtain ⟨given, old, kept, all⟩ := ih (by omega) (by
        intro k row found passed
        obtain ⟨other, before⟩ | clean := cuts.clean k row found
        · exact clean k row before (by omega)
        · exact clean) rest
      refine ⟨given.trans cuts.order, fun a x v said => cuts.old a x v (old a x v said), ?_, all⟩
      intro a x v said alive
      exact kept a x v (cuts.kept a x v said alive) alive

theorem Constructions.kill_spec (ran : t.kill as start past upto memory = some t') :
    t'.order = t.order ∧ ∀ a x v,
      Said t'.rows a x v ↔ Said t.rows a x v ∧ ¬Killed as start past upto a x v := by
  simp only [kill] at ran
  split at ran
  · next empty =>
    cases ran
    exact ⟨rfl, fun a x v => ⟨fun said => ⟨said, fun killed => absurd killed.2 (by omega)⟩,
      fun said => said.1⟩⟩
  · obtain ⟨given, old, kept, all⟩ := killFrom_spec t.rows.length
      (Nat.zero_add _) (by
        intro k row found passed
        have inside := (List.getElem?_eq_some_iff.mp found).1
        omega) ran
    refine ⟨given, fun a x v => ⟨fun said => ⟨old a x v said, ?_⟩, fun said => ?_⟩⟩
    · obtain ⟨row, member, here⟩ := said
      exact all row member a x v here
    · exact kept a x v said.1 said.2

/-! ## Noting -/

/-- A row for the range is published over a free row, or over one for the same range that is not of
a greater sequence. -/
structure Published (t t' : Constructions) (as start past seq op prot : Nat) (off : UInt64) :
    Prop where
  order : t'.order = t.order + 1
  old : ∀ a x v, Said t'.rows a x v → Said t.rows a x v ∨
    Construction.version ⟨start, past, seq, off, t.order + 1, op, prot, as⟩ a x = some v
  new : ∀ a x v,
    Construction.version ⟨start, past, seq, off, t.order + 1, op, prot, as⟩ a x = some v →
    Said t'.rows a x v
  kept : ∀ a x v, Said t.rows a x v → Said t'.rows a x v ∨
    v.seq ≤ seq ∧ a = as ∧ start ≤ x ∧ x < past

theorem Constructions.published {t₁ : Constructions} {old : Construction} {seq op prot : Nat}
    {off : UInt64} (given : t₁.order = t.order)
    (said : ∀ a x v, Said t₁.rows a x v ↔ Said t.rows a x v) (placed : t₁.rows[i]? = some old)
    (replaced : ∀ a x v, old.version a x = some v → v.seq ≤ seq ∧ a = as ∧ start ≤ x ∧ x < past)
    (ran : t₁.publish i { start, past, seq, off, order := 0, op, prot, as } = some t') :
    Published t t' as start past seq op prot off := by
  simp only [publish] at ran
  split at ran
  · cases ran
  · cases ran
    rw [given]
    refine ⟨rfl, fun a x v here => ?_, fun a x v here => Said.new placed here, fun a x v here => ?_⟩
    · exact here.of_set.imp_left (said a x v).mp
    · obtain still | gone := Said.set _ placed ((said a x v).mpr here)
      · exact .inl still
      · exact .inr (replaced a x v gone)

theorem Constructions.note_cases {seq op prot : Nat} {off : UInt64}
    (ran : t.note as start past seq op prot off memory = some t') :
    (seq = 0 ∨ past ≤ start) ∧ t' = t ∨
    (∃ row ∈ t.rows, seq < row.seq ∧ row.as = as ∧ row.start = start ∧ row.past = past) ∧ t' = t ∨
    seq ≠ 0 ∧ Published t t' as start past seq op prot off := by
  simp only [note] at ran
  split at ran
  · next nothing =>
    cases ran
    exact .inl ⟨nothing, rfl⟩
  · next legal =>
    refine .inr ?_
    split at ran
    · next i found =>
      obtain ⟨inside, same, -⟩ := List.findIdx?_eq_some_iff_getElem.mp found
      have placed := List.getElem?_eq_getElem inside
      obtain ⟨live, space, first, last, -⟩ := of_decide_eq_true same
      rw [placed, Option.any_some] at ran
      split at ran
      · next newer =>
        cases ran
        exact .inl ⟨⟨_, getElem_mem inside, of_decide_eq_true newer, space, first, last⟩, rfl⟩
      · next older =>
        refine .inr ⟨by omega, published rfl (fun _ _ _ => .rfl) placed ?_ ran⟩
        intro a x v here
        obtain ⟨⟨mine, -, low, high⟩, rfl⟩ := Construction.version_iff.mp here
        have older := of_decide_eq_false (Bool.eq_false_iff.mpr older)
        refine ⟨Nat.le_of_not_lt older, ?_⟩
        omega
    · obtain ⟨⟨t₁, i⟩, given, rest⟩ := Option.bind_eq_some_iff.mp ran
      have slot := slot_spec given
      obtain ⟨free, placed, zero⟩ := slot.free
      refine .inr ⟨by omega, published slot.order slot.said placed ?_ rest⟩
      intro a x v here
      cases (Construction.version_free zero).symm.trans here

end Vmctx.Layout
