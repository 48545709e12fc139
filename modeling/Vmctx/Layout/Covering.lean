import Mathlib.Data.List.Pairwise
import Vmctx.Layout.Versions
/-!
# The newest version

A note may drop a row, or be dropped, and then the version that is missing from the table is older
than one that the table has at the same address, and is retired no later. So the newest row at an
address is the newest version there, after every sequence of calls.
-/

namespace Vmctx.Layout

open Table Vmctx.System List

variable {t t' : Constructions} {rows : List Construction} {row : Construction} {v w : Version}
  {as start past upto a x i : Nat}

/-! ## The table and the versions -/

def Version.stamped (stamp : Nat → Nat) (v : Version) : Version := { v with order := stamp v.order }

/-- The table agrees with the versions, where the note that was given an order is known. -/
structure Agrees (t : Constructions) (m : Versions) (stamp : Nat → Nat) : Prop where
  rises : ∀ o p, o < p → p ≤ t.order → stamp o < stamp p
  bound : stamp t.order ≤ m.count
  orders : ∀ a x v, Said t.rows a x v → v.order ≤ t.order
  held : ∀ a x v, Said t.rows a x v → v.stamped stamp ∈ m.held a x
  covered : ∀ a x w, w ∈ m.held a x → ∃ v, Said t.rows a x v ∧ w.newer (v.stamped stamp) = false
  distinct : ∀ a x, (m.held a x).Pairwise fun v w => w.order < v.order
  counted : ∀ a x, ∀ w ∈ m.held a x, w.order ≤ m.count

variable {m : Versions} {stamp : Nat → Nat}

theorem Version.newer_iff : v.newer w = true ↔ w.seq < v.seq ∨ v.seq = w.seq ∧ w.order < v.order :=
  decide_eq_true_iff

theorem Version.not_newer_iff :
    v.newer w = false ↔ v.seq < w.seq ∨ v.seq = w.seq ∧ v.order ≤ w.order := by
  rw [← Bool.not_eq_true, newer_iff]
  omega

theorem Version.newer_order : Newer Version.newer where
  asymm v w := by
    rw [newer_iff, not_newer_iff]
    omega
  chain u v w := by
    rw [not_newer_iff, not_newer_iff, not_newer_iff]
    omega

theorem Construction.newer_order : Newer Construction.newer where
  asymm a b := Version.newer_order.asymm (a.at_ 0) (b.at_ 0)
  chain a b c := Version.newer_order.chain (a.at_ 0) (b.at_ 0) (c.at_ 0)

theorem Agrees.stamp_le (agrees : Agrees t m stamp) {o : Nat} (given : o ≤ t.order) :
    stamp o ≤ m.count := by
  obtain less | same := Nat.lt_or_eq_of_le given
  · exact Nat.le_trans (Nat.le_of_lt (agrees.rises o t.order less (Nat.le_refl _))) agrees.bound
  · exact same ▸ agrees.bound

theorem Agrees.stamped_newer (agrees : Agrees t m stamp) (one : v.order ≤ t.order)
    (two : w.order ≤ t.order) : (v.stamped stamp).newer (w.stamped stamp) = v.newer w := by
  have compare : stamp w.order < stamp v.order ↔ w.order < v.order := by
    refine ⟨fun less => ?_, fun less => agrees.rises _ _ less one⟩
    refine Nat.lt_of_not_le fun notLess => ?_
    obtain less' | same := Nat.lt_or_eq_of_le notLess
    · exact Nat.lt_asymm less (agrees.rises _ _ less' two)
    · rw [same] at less
      exact Nat.lt_irrefl _ less
  simp only [Version.newer, Version.stamped, compare]

theorem Agrees.new (stamp : Nat → Nat) (zero : stamp 0 = 0) : Agrees .new .new stamp where
  rises o _ less given := absurd (Nat.lt_of_lt_of_le less given) (Nat.not_lt_zero o)
  bound := Nat.le_of_eq zero
  orders _ _ _ := fun ⟨_, here, _⟩ => absurd here not_mem_nil
  held _ _ _ := fun ⟨_, here, _⟩ => absurd here not_mem_nil
  covered _ _ _ here := absurd here not_mem_nil
  distinct _ _ := .nil
  counted _ _ _ here := absurd here not_mem_nil

variable {memory : Bool} {best : Construction}

theorem Agrees.kill (agrees : Agrees t m stamp) (ran : t.kill as start past upto memory = some t') :
    Agrees t' (m.kill as start past upto) stamp := by
  obtain ⟨given, said⟩ := Constructions.kill_spec ran
  have held (a x : Nat) (w : Version) : w ∈ (m.kill as start past upto).held a x ↔
      w ∈ m.held a x ∧ ¬Killed as start past upto a x w := by
    simp only [Versions.kill, Killed]
    split
    · next here =>
      simp only [mem_filter, here, true_and, Bool.not_eq_true', Bool.not_eq_true]
    · next away =>
      exact ⟨fun old => ⟨old, fun killed => away ⟨killed.1, killed.2.1, killed.2.2.1⟩⟩,
        fun old => old.1⟩
  refine ⟨?_, ?_, ?_, ?_, ?_, ?_, ?_⟩
  · rw [given]
    exact agrees.rises
  · rw [given]
    exact agrees.bound
  · intro a x v here
    rw [given]
    exact agrees.orders a x v ((said a x v).mp here).1
  · intro a x v here
    obtain ⟨old, alive⟩ := (said a x v).mp here
    exact (held a x _).mpr ⟨agrees.held a x v old, alive⟩
  · intro a x w here
    obtain ⟨old, alive⟩ := (held a x w).mp here
    obtain ⟨v, stands, notNewer⟩ := agrees.covered a x w old
    refine ⟨v, (said a x v).mpr ⟨stands, ?_⟩, notNewer⟩
    -- a version is not of a greater sequence than what stands for it
    rintro ⟨mine, low, high, retired⟩
    refine alive ⟨mine, low, high, decide_eq_true ?_⟩
    have retired : upto = 0 ∨ v.seq < upto := of_decide_eq_true retired
    have less := Version.not_newer_iff.mp notNewer
    simp only [Version.stamped] at less
    omega
  · intro a x
    simp only [Versions.kill]
    split
    · exact (agrees.distinct a x).filter _
    · exact agrees.distinct a x
  · intro a x w here
    exact agrees.counted a x w ((held a x w).mp here).1

/-- A note keeps the agreement: what it replaces is not newer, and if it is dropped there is
something newer on all of its range. -/
theorem Agrees.note {seq op prot : Nat} {off : UInt64} (agrees : Agrees t m stamp)
    (ran : t.note as start past seq op prot off memory = some t') :
    ∃ stamp', Agrees t' (m.note as start past seq op prot off) stamp' := by
  have held (a x : Nat) (w : Version) (here : w ∈ (m.note as start past seq op prot off).held a x) :
      w ∈ m.held a x ∨ (seq ≠ 0 ∧ a = as ∧ start ≤ x ∧ x < past) ∧
        w = ⟨seq, m.count + 1, op, prot, shift op off (x - start)⟩ := by
    simp only [Versions.note] at here
    split at here
    · next inside => exact (mem_cons.mp here).symm.imp_right fun same => ⟨inside, same⟩
    · exact .inl here
  have more (a x : Nat) (w : Version) (here : w ∈ m.held a x) :
      w ∈ (m.note as start past seq op prot off).held a x := by
    simp only [Versions.note]
    split
    · exact mem_cons_of_mem _ here
    · exact here
  have distinct (a x : Nat) : ((m.note as start past seq op prot off).held a x).Pairwise
      fun v w => w.order < v.order := by
    simp only [Versions.note]
    split
    · exact pairwise_cons.mpr
        ⟨fun w here => Nat.lt_succ_of_le (agrees.counted a x w here), agrees.distinct a x⟩
    · exact agrees.distinct a x
  have counted (a x : Nat) (w : Version)
      (here : w ∈ (m.note as start past seq op prot off).held a x) :
      w.order ≤ m.count + 1 := by
    obtain old | ⟨-, rfl⟩ := held a x w here
    · exact Nat.le_succ_of_le (agrees.counted a x w old)
    · exact Nat.le_refl _
  obtain ⟨nothing, rfl⟩ | ⟨⟨row, member, newer, mine, first, last⟩, rfl⟩ | ⟨live, published⟩ :=
    Constructions.note_cases ran
  · refine ⟨stamp, agrees.rises, Nat.le_succ_of_le agrees.bound, agrees.orders,
      fun a x v said => more a x _ (agrees.held a x v said), ?_, distinct, counted⟩
    intro a x w here
    obtain old | ⟨inside, -⟩ := held a x w here
    · exact agrees.covered a x w old
    · omega
  · refine ⟨stamp, agrees.rises, Nat.le_succ_of_le agrees.bound, agrees.orders,
      fun a x v said => more a x _ (agrees.held a x v said), ?_, distinct, counted⟩
    intro a x w here
    obtain old | ⟨inside, rfl⟩ := held a x w here
    · exact agrees.covered a x w old
    · have covers : row.Covers a x := ⟨by omega, by omega, by omega, by omega⟩
      exact ⟨row.at_ x, ⟨row, member, Construction.version_iff.mpr ⟨covers, rfl⟩⟩,
        Version.not_newer_iff.mpr (.inl newer)⟩
  · -- the order is given to this note
    have before (o : Nat) (given : o ≤ t.order) :
        (if o = t.order + 1 then m.count + 1 else stamp o) = stamp o := if_neg (by omega)
    have unchanged (a x : Nat) (v : Version) (said : Said t.rows a x v) :
        v.stamped (fun o => if o = t.order + 1 then m.count + 1 else stamp o) =
          v.stamped stamp := by
      simp only [Version.stamped, before _ (agrees.orders a x v said)]
    refine ⟨fun o => if o = t.order + 1 then m.count + 1 else stamp o, ?_, ?_, ?_, ?_, ?_, distinct,
      counted⟩
    · intro o p less given
      rw [published.order] at given
      have low := agrees.stamp_le (show o ≤ t.order by omega)
      rw [before o (by omega)]
      by_cases last : p = t.order + 1
      · rw [if_pos last]
        omega
      · rw [if_neg last]
        exact agrees.rises o p less (by omega)
    · rw [published.order, if_pos rfl]
      exact Nat.le_refl _
    · intro a x v said
      rw [published.order]
      obtain old | new := published.old a x v said
      · exact Nat.le_succ_of_le (agrees.orders a x v old)
      · obtain ⟨-, rfl⟩ := Construction.version_iff.mp new
        exact Nat.le_refl _
    · intro a x v said
      obtain old | new := published.old a x v said
      · rw [unchanged a x v old]
        exact more a x _ (agrees.held a x v old)
      · obtain ⟨⟨mine, -, low, high⟩, rfl⟩ := Construction.version_iff.mp new
        have inside : seq ≠ 0 ∧ a = as ∧ start ≤ x ∧ x < past := ⟨live, mine.symm, low, high⟩
        simp only [Versions.note, if_pos inside]
        refine mem_cons.mpr (.inl ?_)
        simp only [Version.stamped, Construction.at_, if_true]
    · intro a x w here
      have new (inside : a = as ∧ start ≤ x ∧ x < past) : Said t'.rows a x
          ⟨seq, t.order + 1, op, prot, shift op off (x - start)⟩ :=
        published.new a x _ (Construction.version_iff.mpr
          ⟨⟨inside.1.symm, live, inside.2.1, inside.2.2⟩, rfl⟩)
      obtain old | ⟨inside, rfl⟩ := held a x w here
      · obtain ⟨v, said, notNewer⟩ := agrees.covered a x w old
        obtain still | ⟨less, inside⟩ := published.kept a x v said
        · refine ⟨v, still, ?_⟩
          rw [unchanged a x v said]
          exact notNewer
        · refine ⟨_, new inside, ?_⟩
          have order := agrees.counted a x w old
          rw [Version.not_newer_iff] at notNewer ⊢
          simp only [Version.stamped, if_true] at notNewer ⊢
          omega
      · refine ⟨_, new inside.2, Version.not_newer_iff.mpr (.inr ⟨rfl, ?_⟩)⟩
        simp only [Version.stamped, if_true]
        exact Nat.le_refl _

/-! ## Covering -/

theorem Constructions.spanStep_spec {best c : Construction} {lo hi : Nat} (low : lo ≤ x)
    (high : x < hi) :
    ∃ lo' hi', spanStep as x best c (lo, hi) = (lo', hi') ∧
      lo ≤ lo' ∧ lo' ≤ x ∧ x < hi' ∧ hi' ≤ hi ∧
      (c.as = as → c.seq ≠ 0 → c.newer best = true →
        (c.past ≤ x → c.past ≤ lo') ∧ (x < c.start → hi' ≤ c.start)) := by
  simp only [spanStep]
  split
  · next skipped =>
    refine ⟨lo, hi, rfl, Nat.le_refl _, low, high, Nat.le_refl _, fun mine live newer => ?_⟩
    obtain other | free | older := skipped
    · exact absurd mine other
    · exact absurd free live
    · rw [older] at newer
      cases newer
  · refine ⟨_, _, rfl, ?_, ?_, ?_, ?_, fun _ _ _ => ⟨fun below => ?_, fun above => ?_⟩⟩
    all_goals split <;> omega

theorem Constructions.span_spec {best : Construction} (rows : List Construction) {lo hi : Nat}
    (low : lo ≤ x) (high : x < hi) :
    ∃ lo' hi', rows.foldl (fun bounds c => spanStep as x best c bounds) (lo, hi) = (lo', hi') ∧
      lo ≤ lo' ∧ lo' ≤ x ∧ x < hi' ∧ hi' ≤ hi ∧
      ∀ row ∈ rows, row.as = as → row.seq ≠ 0 → row.newer best = true →
        (row.past ≤ x → row.past ≤ lo') ∧ (x < row.start → hi' ≤ row.start) := by
  induction rows generalizing lo hi with
  | nil =>
    exact ⟨lo, hi, rfl, Nat.le_refl _, low, high, Nat.le_refl _,
      fun _ here => absurd here not_mem_nil⟩
  | cons c rows ih =>
    obtain ⟨lo₁, hi₁, step, one, two, three, four, mine⟩ :=
      @spanStep_spec as x best c lo hi low high
    obtain ⟨lo', hi', ran, five, six, seven, eight, rest⟩ := ih two three
    rw [foldl_cons, step]
    refine ⟨lo', hi', ran, Nat.le_trans one five, six, seven, Nat.le_trans eight four,
      forall_mem_cons.mpr ⟨fun space live newer => ?_, rest⟩⟩
    obtain ⟨below, above⟩ := mine space live newer
    exact ⟨fun ends => Nat.le_trans (below ends) five,
      fun begins => Nat.le_trans eight (above begins)⟩

theorem Constructions.best_spec (found : t.best as x = some best) :
    best ∈ t.rows ∧ best.Covers as x ∧
      ∀ row ∈ t.rows, row.Covers as x → row.newer best = false := by
  obtain ⟨member, none⟩ := Construction.newer_order.newest_spec found
  obtain ⟨old, covers⟩ := mem_filter.mp member
  refine ⟨old, of_decide_eq_true covers, fun row here also => ?_⟩
  exact none row (mem_filter.mpr ⟨here, decide_eq_true also⟩)

theorem Agrees.same_note (agrees : Agrees t m stamp) (one : v ∈ m.held as x) (two : w ∈ m.held as x)
    (same : v.order = w.order) : v = w := by
  have pairs : (m.held as x).Pairwise fun v w => v.order = w.order → v = w :=
    (agrees.distinct as x).imp fun less same => absurd same (Nat.ne_of_gt less)
  have flipped : (m.held as x).Pairwise (flip fun v w => v.order = w.order → v = w) :=
    pairs.imp fun here same => (here same.symm).symm
  exact pairs.forall_of_forall_of_flip (fun _ _ _ => rfl) flipped one two same

theorem Agrees.newest_eq (agrees : Agrees t m stamp) (said : Said t.rows as x v)
    (none : ∀ w, Said t.rows as x w → w.newer v = false) :
    m.newest as x = some (v.stamped stamp) := by
  have mine := agrees.held as x v said
  cases found : m.newest as x with
  | none =>
    have empty := Version.newer_order.newest_none.mp found
    rw [empty] at mine
    cases mine
  | some u =>
    obtain ⟨member, last⟩ := Version.newer_order.newest_spec found
    obtain ⟨w, stands, notNewer⟩ := agrees.covered as x u member
    -- neither is newer than the other, so they are of one note
    have weaker : (w.stamped stamp).newer (v.stamped stamp) = false := by
      rw [agrees.stamped_newer (agrees.orders as x w stands) (agrees.orders as x v said)]
      exact none w stands
    have one := Version.not_newer_iff.mp (Version.newer_order.chain _ _ _ notNewer weaker)
    have two := Version.not_newer_iff.mp (last _ mine)
    have same : u.order = (v.stamped stamp).order := by omega
    exact congrArg some (agrees.same_note member mine same)

/-- What `cons_covering` answers about an address, where a version is the newest. -/
structure Shown (m : Versions) (as x : Nat) (v : Version) (c : Covering) : Prop where
  op : c.op = v.op
  prot : c.prot = v.prot
  seq : c.seq = v.seq
  inside : c.start ≤ x ∧ x < c.past
  newest : ∀ y, c.start ≤ y → y < c.past → ∀ w ∈ m.held as y, w.newer v = false
  survives : ∀ y, c.start ≤ y → y < c.past → ∃ w ∈ m.held as y,
    w.order = v.order ∧ w.seq = v.seq ∧ w.op = v.op ∧ w.prot = v.prot
  off : ∃ w ∈ m.held as c.start, w.order = v.order ∧ w.off = c.off

theorem Agrees.shown (agrees : Agrees t m stamp) (found : t.best as x = some best) :
    m.newest as x = some ((best.at_ x).stamped stamp) ∧
      Shown m as x ((best.at_ x).stamped stamp)
        ⟨(Constructions.span as x best t.rows).1, (Constructions.span as x best t.rows).2, best.op,
          best.prot,
          shift best.op best.off ((Constructions.span as x best t.rows).1 - best.start),
          best.seq⟩ := by
  obtain ⟨member, covers, none⟩ := Constructions.best_spec found
  obtain ⟨lo, hi, spanned, starts, low, high, ends, bounds⟩ :=
    @Constructions.span_spec as x best t.rows best.start best.past covers.2.2.1 covers.2.2.2
  have spanned : Constructions.span as x best t.rows = (lo, hi) := spanned
  have here (y : Nat) (low : best.start ≤ y) (high : y < best.past) :
      Said t.rows as y (best.at_ y) :=
    ⟨best, member, Construction.version_iff.mpr ⟨⟨covers.1, covers.2.1, low, high⟩, rfl⟩⟩
  have mine := here x covers.2.2.1 covers.2.2.2
  refine ⟨agrees.newest_eq mine ?_, ?_⟩
  · rintro w ⟨row, old, version⟩
    obtain ⟨also, rfl⟩ := Construction.version_iff.mp version
    exact none row old also
  · rw [spanned]
    refine ⟨rfl, rfl, rfl, ⟨low, high⟩, ?_, ?_, ?_⟩
    · intro y first last w held
      have first : lo ≤ y := first
      have last : y < hi := last
      obtain ⟨u, ⟨row, old, version⟩, notNewer⟩ := agrees.covered as y w held
      refine Version.newer_order.chain _ _ _ notNewer ?_
      have said : Said t.rows as y u := ⟨row, old, version⟩
      rw [agrees.stamped_newer (agrees.orders as y u said) (agrees.orders as x _ mine)]
      obtain ⟨⟨space, live, begins, stops⟩, rfl⟩ := Construction.version_iff.mp version
      -- a newer row does not cover the address, so it bounds the span
      by_cases newer : row.newer best = true
      · obtain ⟨below, above⟩ := bounds row old space live newer
        have away : ¬row.Covers as x := fun also => by
          rw [none row old also] at newer
          cases newer
        simp only [Construction.Covers] at away
        omega
      · exact Bool.eq_false_iff.mpr newer
    · intro y first last
      have first : lo ≤ y := first
      have last : y < hi := last
      exact ⟨_, agrees.held as y _ (here y (by omega) (by omega)), rfl, rfl, rfl, rfl⟩
    · exact ⟨_, agrees.held as lo _ (here lo starts (by omega)), rfl, rfl⟩

/-! ## Every sequence of calls -/

structure ConsBook where
  table : Constructions
  calls : List ConsCall
  deriving DecidableEq, Repr

namespace ConsBook

def new : ConsBook := ⟨.new, []⟩

def versions (b : ConsBook) : Versions := b.calls.foldr (fun call m => m.apply call) .new

def next (b : ConsBook) (event : ConsCall × Bool) : Option ConsBook :=
  (b.table.apply event.1 event.2).map fun table => ⟨table, event.1 :: b.calls⟩

/-- The table of constructions answers by the versions that the calls describe. -/
structure Exact (b : ConsBook) : Prop where
  /-- The versions at an address are of different order. -/
  distinct : ∀ as x, (b.versions.held as x).Pairwise fun v w => w.order < v.order
  /-- The newest is one of them that none is newer than. -/
  newest : ∀ as x v, b.versions.newest as x = some v →
    v ∈ b.versions.held as x ∧ ∀ w ∈ b.versions.held as x, w.newer v = false
  /-- Nothing is returned exactly where there is no version, or the newest is opaque. -/
  hidden : ∀ as x, b.table.covering as x = none ↔
    b.versions.held as x = [] ∨ ∃ v, b.versions.newest as x = some v ∧ v.op = mapNone
  /-- What is returned shows the newest version. -/
  shown : ∀ as x c, b.table.covering as x = some c →
    ∃ v, b.versions.newest as x = some v ∧ Shown b.versions as x v c

end ConsBook

theorem Agrees.apply {call : ConsCall} (agrees : Agrees t m stamp)
    (ran : t.apply call memory = some t') : ∃ stamp', Agrees t' (m.apply call) stamp' := by
  cases call with
  | note as start past seq op prot off => exact agrees.note ran
  | kill as start past upto => exact ⟨stamp, agrees.kill ran⟩

theorem Agrees.hidden (agrees : Agrees t m stamp) : t.covering as x = none ↔
    m.held as x = [] ∨ ∃ v, m.newest as x = some v ∧ v.op = mapNone := by
  simp only [Constructions.covering]
  cases found : t.best as x with
  | none =>
    refine ⟨fun _ => .inl ?_, fun _ => rfl⟩
    have nobody := Construction.newer_order.newest_none.mp found
    refine eq_nil_iff_forall_not_mem.mpr fun w held => ?_
    obtain ⟨v, ⟨row, member, version⟩, -⟩ := agrees.covered as x w held
    have covers := (Construction.version_iff.mp version).1
    have listed : row ∈ t.rows.filter fun row => row.Covers as x :=
      mem_filter.mpr ⟨member, decide_eq_true covers⟩
    rw [nobody] at listed
    cases listed
  | some best =>
    obtain ⟨newest, -⟩ := agrees.shown found
    simp only
    split
    · next masked => exact ⟨fun _ => .inr ⟨_, newest, masked⟩, fun _ => rfl⟩
    · next replayable =>
      refine ⟨nofun, ?_⟩
      rintro (empty | ⟨v, same, op⟩)
      · rw [Versions.newest, empty] at newest
        cases newest
      · cases newest.symm.trans same
        exact absurd op replayable

/-- After every sequence of calls, the table covers each address by its newest construction. -/
theorem construction_exact {b : ConsBook}
    (run : Reach (Computed ConsBook.next) .new b) : b.Exact := by
  have keeps : ∀ (before : ConsBook) (event : ConsCall × Bool) (after : ConsBook),
      (∃ stamp, Agrees before.table before.versions stamp) →
      Computed ConsBook.next before event after →
      ∃ stamp, Agrees after.table after.versions stamp := by
    rintro before event after ⟨stamp, agrees⟩ step
    obtain ⟨table, ran, rfl⟩ := Option.map_eq_some_iff.mp step
    exact agrees.apply ran
  have base : ∃ stamp, Agrees ConsBook.new.table ConsBook.new.versions stamp := ⟨id, .new id rfl⟩
  obtain ⟨stamp, agrees⟩ := Reach.invariant keeps base run
  refine ⟨agrees.distinct, fun as x v => Version.newer_order.newest_spec, ?_, ?_⟩
  · intro as x
    exact agrees.hidden
  · intro as x c found
    simp only [Constructions.covering] at found
    split at found
    · cases found
    · next best best_found =>
      obtain ⟨newest, shown⟩ := agrees.shown best_found
      split at found
      · cases found
      · cases found
        exact ⟨_, newest, shown⟩

/-- A mapping, a newer protection of a part, the retirement of another part, and a note that comes
too late. -/
def lateCalls : List (ConsCall × Bool) :=
  [(.note 1 0x1000 0x9000 5 1 3 0x4000, true), (.note 1 0x3000 0x4000 7 2 1 0, true),
    (.kill 1 0x5000 0x6000 6, true), (.note 1 0x3000 0x4000 6 2 7 0, true)]

/-- A construction that is noted late, over what newer ones and a retirement left of it. -/
theorem construction_exact_late : ∃ b : ConsBook, b.Exact ∧
    b.table.covering 1 0x4800 = some ⟨0x4000, 0x5000, 1, 3, 0x7000, 5⟩ ∧
    b.table.covering 1 0x8000 = some ⟨0x6000, 0x9000, 1, 3, 0x9000, 5⟩ ∧
    b.table.covering 1 0x3000 = some ⟨0x3000, 0x4000, 2, 1, 0, 7⟩ ∧
    b.table.covering 1 0x5000 = none := by
  have ran : (exec ConsBook.next ConsBook.new lateCalls).any (fun b => decide
      (b.table.covering 1 0x4800 = some ⟨0x4000, 0x5000, 1, 3, 0x7000, 5⟩ ∧
        b.table.covering 1 0x8000 = some ⟨0x6000, 0x9000, 1, 3, 0x9000, 5⟩ ∧
        b.table.covering 1 0x3000 = some ⟨0x3000, 0x4000, 2, 1, 0, 7⟩ ∧
        b.table.covering 1 0x5000 = none)) = true := by
    decide
  obtain ⟨b, run, found⟩ := exec_exhibits ran
  exact ⟨b, construction_exact run, of_decide_eq_true found⟩

end Vmctx.Layout
