import Vmctx.Table.Rewriting
/-!
# Tables of ranges

A row covers a range of addresses of one space and says something about each of them. Taking a range
out of the table shortens the rows that overlap it, divides one that extends beyond both ends, and
drops those inside of it. As long as no two rows of a space overlap, at most one row is divided, and
what the table says is what it said with the range taken out.
-/

namespace Vmctx.Table

open List

/-- Rows that say something of ranges. -/
structure Ranges (ρ ν : Type) where
  space : ρ → Nat
  first : ρ → Nat
  past : ρ → Nat
  content : ρ → Nat → ν
  narrow : ρ → Nat → Nat → ρ

namespace Ranges

variable {ρ ν : Type} (R : Ranges ρ ν)

def Covers (row : ρ) (as x : Nat) : Prop := R.space row = as ∧ R.first row ≤ x ∧ x < R.past row

instance (row : ρ) (as x : Nat) : Decidable (R.Covers row as x) :=
  inferInstanceAs (Decidable (_ ∧ _ ∧ _))

def value (row : ρ) (k : Nat × Nat) : Option ν :=
  if R.Covers row k.1 k.2 then some (R.content row k.2) else none

def Away (as st en : Nat) (row : ρ) : Prop := R.space row ≠ as ∨ R.past row ≤ st ∨ en ≤ R.first row

instance (as st en : Nat) (row : ρ) : Decidable (R.Away as st en row) :=
  inferInstanceAs (Decidable (_ ∨ _ ∨ _))

def cut (as st en : Nat) (old : ρ) : Verdict ρ :=
  if R.Away as st en old then .keep
  else if R.first old < st then
    .split (R.narrow old (R.first old) st)
      (if en < R.past old then [R.narrow old en (R.past old)] else [])
  else if en < R.past old then .split (R.narrow old en (R.past old)) []
  else .remove []

def remove (t : Growing ρ) (as st en : Nat) : Except Halt (Growing ρ) :=
  t.keep (sweep (within t.capacity) (R.cut as st en) (2 * t.rows.length + 1) 0 t.rows)

def lower (row : ρ) (st : Nat) : List ρ :=
  if R.first row < st then [R.narrow row (R.first row) st] else []

def upper (row : ρ) (en : Nat) : List ρ :=
  if en < R.past row then [R.narrow row en (R.past row)] else []

/-- A part of a row is a row with that range that says what the row says; sound rows are not empty,
and a part of one that is not empty is sound. -/
structure Lawful (Sound : ρ → Prop) : Prop where
  space : ∀ row s e, R.space (R.narrow row s e) = R.space row
  first : ∀ row s e, R.first (R.narrow row s e) = s
  past : ∀ row s e, R.past (R.narrow row s e) = e
  content : ∀ row s e x, R.first row ≤ s → s ≤ x → R.content (R.narrow row s e) x = R.content row x
  nonempty : ∀ row, Sound row → R.first row < R.past row
  part : ∀ row s e, Sound row → R.first row ≤ s → s < e → e ≤ R.past row → Sound (R.narrow row s e)

variable {R} {Sound : ρ → Prop} {row : ρ} {rows : List ρ} {as st en a x : Nat}

theorem value_some (here : R.Covers row a x) : R.value row (a, x) = some (R.content row x) :=
  if_pos here

theorem value_none (away : ¬R.Covers row a x) : R.value row (a, x) = none := if_neg away

/-! ## What is left of a row -/

theorem Lawful.narrow_covers (lawful : R.Lawful Sound) {s e : Nat} (low : R.first row ≤ s)
    (high : e ≤ R.past row) :
    R.Covers (R.narrow row s e) a x ↔ (s ≤ x ∧ x < e) ∧ R.Covers row a x := by
  simp only [Covers, lawful.space, lawful.first, lawful.past]
  omega

theorem Lawful.narrow_value (lawful : R.Lawful Sound) {s e : Nat} (low : R.first row ≤ s)
    (high : e ≤ R.past row) (k : Nat × Nat) :
    R.value (R.narrow row s e) k = if s ≤ k.2 ∧ k.2 < e then R.value row k else none := by
  have covers := @lawful.narrow_covers _ _ _ _ row k.1 k.2 s e low high
  by_cases here : R.Covers (R.narrow row s e) k.1 k.2
  · obtain ⟨inside, old⟩ := covers.mp here
    rw [if_pos inside, value, value, if_pos here, if_pos old, lawful.content _ _ _ _ low inside.1]
  · rw [value, if_neg here]
    by_cases inside : s ≤ k.2 ∧ k.2 < e
    · rw [if_pos inside, value, if_neg fun old => here (covers.mpr ⟨inside, old⟩)]
    · rw [if_neg inside]

theorem value_ite {p q : Prop} [Decidable p] [Decidable q] (k : Nat × Nat)
    (same : R.Covers row k.1 k.2 → (p ↔ q)) :
    (if p then R.value row k else none) = if q then R.value row k else none := by
  by_cases here : R.Covers row k.1 k.2
  · simp only [same here]
  · rw [value, if_neg here, ite_self, ite_self]

theorem Lawful.lower_reads (lawful : R.Lawful Sound) (order : st ≤ R.past row) (k : Nat × Nat) :
    reads R.value (R.lower row st) k = if k.2 < st then R.value row k else none := by
  simp only [lower]
  split
  · rw [reads_singleton, lawful.narrow_value (Nat.le_refl _) order]
    exact value_ite k fun here => ⟨fun inside => inside.2, fun below => ⟨here.2.1, below⟩⟩
  · next above =>
    rw [reads_nil]
    by_cases here : R.Covers row k.1 k.2
    · rw [if_neg fun below => above (Nat.lt_of_le_of_lt here.2.1 below)]
    · rw [value, if_neg here, ite_self]

theorem Lawful.upper_reads (lawful : R.Lawful Sound) (order : R.first row ≤ en) (k : Nat × Nat) :
    reads R.value (R.upper row en) k = if en ≤ k.2 then R.value row k else none := by
  simp only [upper]
  split
  · rw [reads_singleton, lawful.narrow_value order (Nat.le_refl _)]
    exact value_ite k fun here => ⟨fun inside => inside.1, fun above => ⟨above, here.2.2⟩⟩
  · next below =>
    rw [reads_nil]
    by_cases here : R.Covers row k.1 k.2
    · rw [if_neg fun above => below (Nat.lt_of_le_of_lt above here.2.2)]
    · rw [value, if_neg here, ite_self]

theorem Lawful.lower_sound (lawful : R.Lawful Sound) (sound : Sound row) (order : st ≤ R.past row) :
    ∀ piece ∈ R.lower row st, Sound piece := by
  intro piece member
  simp only [lower] at member
  split at member
  · next below =>
    cases mem_singleton.mp member
    exact lawful.part _ _ _ sound (Nat.le_refl _) below order
  · exact absurd member not_mem_nil

theorem Lawful.upper_sound (lawful : R.Lawful Sound) (sound : Sound row)
    (order : R.first row ≤ en) : ∀ piece ∈ R.upper row en, Sound piece := by
  intro piece member
  simp only [upper] at member
  split at member
  · next above =>
    cases mem_singleton.mp member
    exact lawful.part _ _ _ sound order above (Nat.le_refl _)
  · exact absurd member not_mem_nil

theorem lower_length : (R.lower row st).length ≤ 1 := by
  simp only [lower]
  split <;> simp

theorem upper_length : (R.upper row en).length ≤ 1 := by
  simp only [upper]
  split <;> simp

theorem lower_count (near : st < R.past row) (mine : R.space row = as) :
    (R.lower row st).length ≤ if (R.value row (as, st)).isSome then 1 else 0 := by
  simp only [lower]
  split
  · next below =>
    rw [value_some ⟨mine, Nat.le_of_lt below, near⟩]
    exact Nat.le_refl 1
  · exact Nat.zero_le _

theorem upper_count (near : R.first row ≤ en) (mine : R.space row = as) :
    (R.upper row en).length ≤ if (R.value row (as, en)).isSome then 1 else 0 := by
  simp only [upper]
  split
  · next above =>
    rw [value_some ⟨mine, near, above⟩]
    exact Nat.le_refl 1
  · exact Nat.zero_le _

theorem Lawful.parts_spec (lawful : R.Lawful Sound) (sound : Sound row) (low : st ≤ R.past row)
    (high : R.first row ≤ en) (order : st ≤ en) :
    (∀ piece ∈ R.lower row st ++ R.upper row en, Sound piece) ∧
    Apart R.value (R.lower row st ++ R.upper row en) ∧
    ∀ k, reads R.value (R.lower row st ++ R.upper row en) k =
      if st ≤ k.2 ∧ k.2 < en then none else R.value row k := by
  have single {rows : List ρ} (short : rows.length ≤ 1) : Apart R.value rows := by
    match rows, short with
    | [], _ => exact .nil
    | [_], _ => exact pairwise_singleton _ _
  refine ⟨?_, ?_, ?_⟩
  · intro piece member
    obtain left | right := mem_append.mp member
    · exact lawful.lower_sound sound low piece left
    · exact lawful.upper_sound sound high piece right
  · refine @Apart.append _ _ _ _ _ _ (fun k => k.2 < st) (fun k => en ≤ k.2) _ _
      (single lower_length) (single upper_length) ?_ ?_ ?_
    · intro k outside
      rw [lawful.lower_reads low, if_neg outside]
    · intro k outside
      rw [lawful.upper_reads high, if_neg outside]
    · intro k both
      omega
  · intro k
    rw [reads_append, lawful.lower_reads low, lawful.upper_reads high]
    split_ifs <;> first | rfl | omega | simp

theorem cut_away (away : R.Away as st en row) : (R.cut as st en row).pieces row = [row] := by
  rw [cut, if_pos away]
  rfl

theorem cut_near (near : ¬R.Away as st en row) :
    (R.cut as st en row).pieces row = R.lower row st ++ R.upper row en := by
  simp only [cut, if_neg near, lower, upper]
  split
  · rfl
  · split <;> rfl

theorem Lawful.cut_pieces (lawful : R.Lawful Sound) (order : st < en) (sound : Sound row) :
    (∀ piece ∈ (R.cut as st en row).pieces row, Sound piece) ∧
    Apart R.value ((R.cut as st en row).pieces row) ∧
    ∀ k, reads R.value ((R.cut as st en row).pieces row) k =
      if k.1 = as ∧ st ≤ k.2 ∧ k.2 < en then none else R.value row k := by
  by_cases away : R.Away as st en row
  · rw [cut_away away]
    refine ⟨?_, pairwise_singleton _ _, ?_⟩
    · intro piece member
      cases mem_singleton.mp member
      exact sound
    · rintro ⟨a, x⟩
      rw [reads_singleton]
      simp only [Away] at away
      split
      · exact value_none (by simp only [Covers]; omega)
      · rfl
  · rw [cut_near away]
    simp only [Away, not_or, not_not] at away
    obtain ⟨mine, low, high⟩ := away
    obtain ⟨each, apart, said⟩ := lawful.parts_spec sound (Nat.le_of_lt (Nat.lt_of_not_le low))
      (Nat.le_of_lt (Nat.lt_of_not_le high)) (Nat.le_of_lt order)
    refine ⟨each, apart, ?_⟩
    rintro ⟨a, x⟩
    rw [said]
    by_cases same : a = as
    · simp only [same, true_and]
    · have none : R.value row (a, x) = none :=
        value_none fun here => same (here.1.symm.trans mine)
      rw [none, ite_self, ite_self]

/-! ## The sweep -/

theorem Lawful.cut_stable (lawful : R.Lawful Sound) (as st en : Nat) (row : ρ) :
    ∀ piece ∈ (R.cut as st en row).rest, R.cut as st en piece = .keep := by
  intro piece member
  simp only [cut] at member
  split at member
  · exact absurd member not_mem_nil
  · split at member
    · simp only [Verdict.rest] at member
      split at member
      · cases mem_singleton.mp member
        exact if_pos (.inr (.inr (Nat.le_of_eq (lawful.first row en _).symm)))
      · exact absurd member not_mem_nil
    · split at member
      · exact absurd member not_mem_nil
      · exact absurd member not_mem_nil

theorem cut_rounds (as st en : Nat) (rows : List ρ) :
    rounds (R.cut as st en) rows < 2 * rows.length + 1 := by
  induction rows with
  | nil => exact Nat.zero_lt_one
  | cons row rows ih =>
    have one : (R.cut as st en row).rest.length ≤ 1 := by
      simp only [cut]
      split
      · exact Nat.zero_le 1
      · split
        · simp only [Verdict.rest]
          split <;> simp
        · split <;> exact Nat.zero_le 1
    rw [rounds_cons, length_cons]
    omega

theorem cut_growth (as st en : Nat) (row : ρ) :
    (R.cut as st en row).growth ≤ if (R.value row (as, st)).isSome then 1 else 0 := by
  simp only [cut]
  split
  · exact Nat.zero_le _
  · next near =>
    simp only [Away, not_or, not_not] at near
    obtain ⟨mine, low, -⟩ := near
    split
    · next below =>
      simp only [Verdict.growth]
      rw [value_some ⟨mine, Nat.le_of_lt below, Nat.lt_of_not_le low⟩]
      split <;> simp
    · split <;> exact Nat.zero_le _

theorem Lawful.cut_count (lawful : R.Lawful Sound) {other : Nat} (different : as ≠ other)
    (rows : List ρ) :
    (rows.flatMap fun row => (R.cut as st en row).pieces row).countP (R.space · = other) =
      rows.countP (R.space · = other) := by
  induction rows with
  | nil => rfl
  | cons row rows ih =>
    rw [flatMap_cons, countP_append, ih, countP_cons]
    by_cases away : R.Away as st en row
    · rw [cut_away away, countP_cons, countP_nil]
      omega
    · rw [cut_near away]
      simp only [Away, not_or, not_not] at away
      have mine : ¬R.space row = other := fun same => different (away.1.symm.trans same)
      have none : (R.lower row st ++ R.upper row en).countP (R.space · = other) = 0 := by
        refine countP_eq_zero.mpr fun piece member => ?_
        have same : R.space piece = R.space row := by
          simp only [lower, upper] at member
          obtain left | right := mem_append.mp member
          · split at left
            · cases mem_singleton.mp left
              exact lawful.space _ _ _
            · exact absurd left not_mem_nil
          · split at right
            · cases mem_singleton.mp right
              exact lawful.space _ _ _
            · exact absurd right not_mem_nil
        rw [same]
        simpa using mine
      rw [none]
      simp only [mine, decide_false, Bool.false_eq_true, if_false]
      omega

/-! ## The table as a map -/

structure Shows (R : Ranges ρ ν) (Sound : ρ → Prop) (t : Growing ρ) (m : Nat → Nat → Option ν) :
    Prop where
  sound : ∀ row ∈ t.rows, Sound row
  apart : Apart R.value t.rows
  reads : ∀ a x, reads R.value t.rows (a, x) = m a x

variable {t : Growing ρ} {m : Nat → Nat → Option ν}

theorem Shows.grow (shows : R.Shows Sound t m) (capacity : Nat) :
    R.Shows Sound { t with capacity } m :=
  ⟨shows.sound, shows.apart, shows.reads⟩

theorem Shows.new : R.Shows Sound .new fun _ _ => none :=
  ⟨fun _ here => absurd here not_mem_nil, .nil, fun _ _ => rfl⟩

theorem Lawful.remove_spec (lawful : R.Lawful Sound) (shows : R.Shows Sound t m) (as : Nat)
    (order : st < en) (room : t.rows.length + 1 ≤ t.capacity) :
    ∃ rows, R.remove t as st en = .ok { t with rows } ∧ rows.length ≤ t.rows.length + 1 ∧
      (∀ other, as ≠ other →
        rows.countP (R.space · = other) = t.rows.countP (R.space · = other)) ∧
      R.Shows Sound { t with rows } fun a x =>
        if a = as ∧ st ≤ x ∧ x < en then none else m a x := by
  have one := shows.apart.count_le (as, st)
  have grows := growth_le_countP t.rows fun row _ => R.cut_growth as st en row
  obtain ⟨rows, ran, length, rewritten⟩ := @sweep_rewrites _ _ _ R.value t.rows t.capacity
    (fun k v => if k.1 = as ∧ st ≤ k.2 ∧ k.2 < en then none else v) (R.cut as st en) _ shows.apart
    (fun _ => ite_self none) (fun row here => (lawful.cut_pieces order (shows.sound row here)).2.1)
    (fun row here => (lawful.cut_pieces order (shows.sound row here)).2.2)
    (lawful.cut_stable as st en) (R.cut_rounds as st en t.rows) (by omega)
  refine ⟨rows, by rw [remove, ran]; rfl, by omega, ?_, ?_, rewritten.apart, ?_⟩
  · intro other different
    rw [rewritten.perm.countP_eq]
    exact lawful.cut_count different t.rows
  · intro piece member
    obtain ⟨row, old, part⟩ := rewritten.source member
    exact (lawful.cut_pieces order (shows.sound row old)).1 piece part
  · intro a x
    rw [rewritten.reads, shows.reads]

theorem Shows.put_spec (shows : R.Shows Sound t m) (sound : Sound row)
    (room : t.rows.length < t.capacity) (absent : ∀ a x, R.Covers row a x → m a x = none) :
    t.put row = .ok { t with rows := t.rows ++ [row] } ∧
      R.Shows Sound { t with rows := t.rows ++ [row] } fun a x =>
        if R.Covers row a x then some (R.content row x) else m a x := by
  have silent (a x : Nat) (here : R.Covers row a x) : Table.reads R.value t.rows (a, x) = none := by
    rw [shows.reads, absent a x here]
  refine ⟨t.put_room row room, ?_, ?_, ?_⟩
  · intro other member
    obtain old | new := mem_append.mp member
    · exact shows.sound other old
    · cases mem_singleton.mp new
      exact sound
  · refine pairwise_append.mpr ⟨shows.apart, pairwise_singleton _ _, ?_⟩
    rintro other old new member ⟨a, x⟩
    cases mem_singleton.mp member
    by_cases here : R.Covers row a x
    · exact .inl (List.findSome?_eq_none_iff.mp (silent a x here) other old)
    · exact .inr (value_none here)
  · intro a x
    show Table.reads R.value (t.rows ++ [row]) (a, x) = _
    rw [reads_append, reads_singleton]
    by_cases here : R.Covers row a x
    · rw [silent a x here, value_some here, if_pos here]
      rfl
    · rw [value_none here, if_neg here, Option.or_none, shows.reads]

/-! ## Copies -/

theorem Shows.emptied {bound child : Nat} (bounded : ∀ row, Sound row → R.past row ≤ bound)
    (shows : R.Shows Sound t fun a x => if a = child ∧ 0 ≤ x ∧ x < bound then none else m a x)
    (x : Nat) : Table.reads R.value t.rows (child, x) = none := by
  refine List.findSome?_eq_none_iff.mpr fun row member => ?_
  by_cases here : R.Covers row child x
  · have below : x < bound := Nat.lt_of_lt_of_le here.2.2 (bounded row (shows.sound row member))
    have said := shows.reads child x
    rw [if_pos ⟨rfl, Nat.zero_le x, below⟩] at said
    exact List.findSome?_eq_none_iff.mp said row member
  · exact value_none here

/-- A copy of a row is one of another space with the same range, and is sound if the row is. -/
structure Copies (R : Ranges ρ ν) (Sound : ρ → Prop) (child : Nat) (copied : ρ → ρ) (g : ν → ν) :
    Prop where
  space : ∀ row, R.space (copied row) = child
  range : ∀ row, R.first (copied row) = R.first row ∧ R.past (copied row) = R.past row
  content : ∀ row x, R.content (copied row) x = g (R.content row x)
  sound : ∀ row, Sound row → Sound (copied row)

variable {child parent : Nat} {copied : ρ → ρ} {g : ν → ν}

section

variable (copies : R.Copies Sound child copied g)
include copies

theorem Copies.covers (mine : R.space row = parent) :
    R.Covers (copied row) child x ↔ R.Covers row parent x := by
  simp only [Covers, copies.space, copies.range, mine, true_and]

theorem Copies.value (mine : R.space row = parent) :
    R.value (copied row) (child, x) = (R.value row (parent, x)).map g := by
  by_cases here : R.Covers row parent x
  · rw [value_some here, value_some ((copies.covers mine).mpr here), copies.content]
    rfl
  · rw [value_none here, value_none fun same => here ((copies.covers mine).mp same)]
    rfl

theorem Copies.reads (rows : List ρ) (x : Nat) :
    Table.reads R.value ((rows.filter (R.space · = parent)).map copied) (child, x) =
      (Table.reads R.value rows (parent, x)).map g := by
  induction rows with
  | nil => rfl
  | cons row rows ih =>
    simp only [Table.reads, List.findSome?_cons] at ih ⊢
    by_cases mine : R.space row = parent
    · simp only [filter_cons, mine, decide_true, if_true, map_cons, List.findSome?_cons,
        copies.value mine, ih]
      cases R.value row (parent, x) <;> rfl
    · have silent : R.value row (parent, x) = none := value_none fun here => mine here.1
      simp only [filter_cons, mine, decide_false, Bool.false_eq_true, if_false, silent, ih]

theorem Copies.silent (other : a ≠ child) :
    ∀ row ∈ (rows.filter (R.space · = parent)).map copied, R.value row (a, x) = none := by
  intro row member
  obtain ⟨old, -, rfl⟩ := mem_map.mp member
  exact value_none fun here => other (here.1.symm.trans (copies.space old))

theorem Copies.apart (apart : Apart R.value rows) :
    Apart R.value ((rows.filter (R.space · = parent)).map copied) := by
  refine pairwise_map.mpr ((apart.filter _).imp_of_mem ?_)
  rintro row other here there disjoint ⟨a, x⟩
  have mine : R.space row = parent := by simpa using (mem_filter.mp here).2
  have also : R.space other = parent := by simpa using (mem_filter.mp there).2
  by_cases same : a = child
  · subst same
    rw [copies.value mine, copies.value also]
    exact (disjoint (parent, x)).imp (by rw [·]; rfl) (by rw [·]; rfl)
  · exact .inl (value_none fun covers => same (covers.1.symm.trans (copies.space row)))

/-- Copies of a space's rows, where the other has none, make the other's map that one's, changed. -/
theorem Copies.shows (different : child ≠ parent) (shows : R.Shows Sound t m)
    (absent : ∀ x, m child x = none) :
    R.Shows Sound { t with rows := t.rows ++ (t.rows.filter (R.space · = parent)).map copied }
      fun a x => if a = child then (m parent x).map g else m a x := by
  refine ⟨?_, ?_, ?_⟩
  · intro row member
    obtain old | copy := mem_append.mp member
    · exact shows.sound row old
    · obtain ⟨row, old, rfl⟩ := mem_map.mp copy
      exact copies.sound row (shows.sound row (mem_filter.mp old).1)
  · refine pairwise_append.mpr ⟨shows.apart, copies.apart shows.apart, ?_⟩
    rintro row old copy member ⟨a, x⟩
    by_cases mine : a = child
    · have silent : Table.reads R.value t.rows (a, x) = none := by
        rw [shows.reads, mine, absent]
      exact .inl (List.findSome?_eq_none_iff.mp silent row old)
    · exact .inr (copies.silent mine copy member)
  · intro a x
    show Table.reads R.value (t.rows ++ _) (a, x) = _
    rw [reads_append, shows.reads]
    by_cases mine : a = child
    · subst mine
      rw [absent, copies.reads, shows.reads, if_pos rfl]
      rfl
    · have silent : Table.reads R.value ((t.rows.filter (R.space · = parent)).map copied) (a, x) =
          none := List.findSome?_eq_none_iff.mpr (copies.silent mine)
      rw [if_neg mine, silent, Option.or_none]

end

/-! ## Calls -/

def Yields (R : Ranges ρ ν) (Sound : ρ → Prop) (result : Except Halt (Growing ρ))
    (m : Nat → Nat → Option ν) : Prop :=
  match result with
  | .error halt => halt = .abort
  | .ok t => R.Shows Sound t m

theorem Yields.reserved {size need : Nat} {memory : Bool}
    {rest : Growing ρ → Except Halt (Growing ρ)}
    (follows : ∀ capacity, need ≤ capacity → R.Yields Sound (rest { t with capacity }) m) :
    R.Yields Sound ((t.reserve size need memory).bind rest) m := by
  obtain aborts | ⟨capacity, room, reserved⟩ := t.reserve_cases size need memory
  · rw [aborts]
    rfl
  · rw [reserved]
    exact follows capacity room

/-- A call that returns does so with a table of the map, and nothing was written outside of it. -/
theorem Yields.not_overrun {result : Except Halt (Growing ρ)} (yields : R.Yields Sound result m) :
    result ≠ .error .overrun := by
  rintro rfl
  cases yields

theorem reads_find (rows : List ρ) (a x : Nat) :
    Table.reads R.value rows (a, x) =
      (rows.find? fun row => decide (R.Covers row a x)).map (R.content · x) := by
  induction rows with
  | nil => rfl
  | cons row rows ih =>
    simp only [Table.reads, List.findSome?_cons, List.find?_cons] at ih ⊢
    by_cases here : R.Covers row a x
    · rw [value_some here, decide_eq_true here]
      rfl
    · rw [value_none here, decide_eq_false here, ih]

theorem Lawful.disjoint (lawful : R.Lawful Sound) (sound : ∀ row ∈ rows, Sound row)
    (apart : Apart R.value rows) :
    rows.Pairwise fun row other =>
      R.space row = R.space other → R.past row ≤ R.first other ∨ R.past other ≤ R.first row := by
  refine apart.imp_of_mem fun {row other} here there silent same => ?_
  have first := lawful.nonempty row (sound row here)
  have second := lawful.nonempty other (sound other there)
  by_contra overlap
  obtain ⟨before, behind⟩ := not_or.mp overlap
  -- the greater of the two first addresses is covered by both
  have one : R.Covers row (R.space row) (max (R.first row) (R.first other)) :=
    ⟨rfl, by omega, by omega⟩
  have two : R.Covers other (R.space row) (max (R.first row) (R.first other)) :=
    ⟨same.symm, by omega, by omega⟩
  obtain none | none := silent (R.space row, max (R.first row) (R.first other))
  · rw [value_some one] at none
    cases none
  · rw [value_some two] at none
    cases none

end Ranges

end Vmctx.Table
