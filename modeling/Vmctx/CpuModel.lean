import Mathlib.Data.Nat.Bitwise
import Vmctx.Machine
import Vmctx.Order.Requirement
/-!
# Negotiation of the processor model

A model lists the features that a guest may use, as bits of the words that the identification
instruction returns. Both sides intersect the models of their processors, and the source intersects
the result with the executor's. After each intersection the model is trimmed to the portable
features, and extended state is kept only with the features that it needs.

The features of a model form a meet semilattice, in which trimming imposes two requirements.
-/

namespace Vmctx.CpuModel

/-! The model. -/

@[ext]
structure Features where
  leaf1Ecx : UInt32
  leaf1Edx : UInt32
  leaf7Ebx : UInt32
  leaf7Ecx : UInt32
  leaf7Edx : UInt32
  ext1Ecx : UInt32
  ext1Edx : UInt32
  xcr0 : UInt64
  deriving DecidableEq

/-- `struct vmctx_cpu_model`. -/
@[ext]
structure Model extends Features where
  version : UInt32
  reserved : UInt32
  reserved2 : UInt32
  deriving DecidableEq

def modelVersion : UInt32 := 1

def cpuBit (n : UInt32) : UInt32 := 1 <<< n

def cpu1C : UInt32 :=
  cpuBit 0 ||| cpuBit 1 ||| cpuBit 9 ||| cpuBit 12 ||| cpuBit 13 ||| cpuBit 19 ||| cpuBit 20 |||
  cpuBit 22 ||| cpuBit 23 ||| cpuBit 25 ||| cpuBit 26 ||| cpuBit 27 ||| cpuBit 28 ||| cpuBit 29 |||
  cpuBit 30

def cpu1D : UInt32 :=
  cpuBit 0 ||| cpuBit 4 ||| cpuBit 8 ||| cpuBit 15 ||| cpuBit 23 ||| cpuBit 24 ||| cpuBit 25 |||
  cpuBit 26

def cpu7B : UInt32 :=
  cpuBit 3 ||| cpuBit 5 ||| cpuBit 8 ||| cpuBit 9 ||| cpuBit 18 ||| cpuBit 19 ||| cpuBit 29

def cpuEC : UInt32 := cpuBit 0 ||| cpuBit 5

def cpuED : UInt32 := cpuBit 11 ||| cpuBit 20 ||| cpuBit 29

def cpuAvxDep : UInt32 := cpuBit 12 ||| cpuBit 28 ||| cpuBit 29

def cpuXsave : UInt32 := cpuBit 26 ||| cpuBit 27

def trimPortable (m : Model) : Model where
  version := modelVersion
  reserved := 0
  reserved2 := 0
  leaf1Ecx := m.leaf1Ecx &&& cpu1C
  leaf1Edx := m.leaf1Edx &&& cpu1D
  leaf7Ebx := m.leaf7Ebx &&& cpu7B
  leaf7Ecx := 0
  leaf7Edx := 0
  ext1Ecx := m.ext1Ecx &&& cpuEC
  ext1Edx := m.ext1Edx &&& cpuED
  xcr0 := m.xcr0 &&& 7

def trimXsave (m : Model) : Model :=
  if m.leaf1Ecx &&& cpuXsave ≠ cpuXsave then
    { m with leaf1Ecx := m.leaf1Ecx &&& ~~~cpuXsave, xcr0 := m.xcr0 &&& 3 }
  else m

def trimAvx (m : Model) : Model :=
  if m.xcr0 &&& 7 ≠ 7 ∨ m.leaf1Ecx &&& cpuBit 28 = 0 then
    { m with
      xcr0 := m.xcr0 &&& 3,
      leaf1Ecx := m.leaf1Ecx &&& ~~~cpuAvxDep,
      leaf7Ebx := m.leaf7Ebx &&& ~~~cpuBit 5 }
  else m

/-- `vmctx_cpu_model_trim`. -/
def vmctxCpuModelTrim (m : Model) : Model := trimAvx (trimXsave (trimPortable m))

/-- `vmctx_cpu_model_intersect`. -/
def vmctxCpuModelIntersect (a b : Model) : Model :=
  vmctxCpuModelTrim { a with
    leaf1Ecx := a.leaf1Ecx &&& b.leaf1Ecx,
    leaf1Edx := a.leaf1Edx &&& b.leaf1Edx,
    leaf7Ebx := a.leaf7Ebx &&& b.leaf7Ebx,
    leaf7Ecx := a.leaf7Ecx &&& b.leaf7Ecx,
    leaf7Edx := a.leaf7Edx &&& b.leaf7Edx,
    ext1Ecx := a.ext1Ecx &&& b.ext1Ecx,
    ext1Edx := a.ext1Edx &&& b.ext1Edx,
    xcr0 := a.xcr0 &&& b.xcr0 }

/-- `vmctx_cpu_model_valid`. -/
def vmctxCpuModelValid (m : Model) : Bool :=
  let c := vmctxCpuModelTrim m
  m.version == c.version && m.reserved == 0 && m.reserved2 == 0 &&
    m.leaf1Ecx == c.leaf1Ecx && m.leaf1Edx == c.leaf1Edx &&
    m.leaf7Ebx == c.leaf7Ebx && m.leaf7Ecx == 0 && m.leaf7Edx == 0 &&
    m.ext1Ecx == c.ext1Ecx && m.ext1Edx == c.ext1Edx &&
    m.xcr0 == c.xcr0 && m.xcr0 &&& 3 == 3 &&
    m.leaf1Edx &&& cpu1D == cpu1D &&
    m.ext1Edx &&& cpuED == cpuED

/-- `vmctx_cpu_model_subset`. -/
def vmctxCpuModelSubset (m caps : Model) : Bool :=
  vmctxCpuModelValid m &&
    m.leaf1Ecx &&& ~~~caps.leaf1Ecx == 0 && m.leaf1Edx &&& ~~~caps.leaf1Edx == 0 &&
    m.leaf7Ebx &&& ~~~caps.leaf7Ebx == 0 &&
    m.ext1Ecx &&& ~~~caps.ext1Ecx == 0 && m.ext1Edx &&& ~~~caps.ext1Edx == 0 &&
    m.xcr0 &&& ~~~caps.xcr0 == 0

/-- The loop of `vmctx_cpu_caps_all` over what the processors answer: the model so far, if there is
one. -/
def capsLoop : Option Model → List (Except Errno Model) → Except Errno (Option Model)
  | caps, [] => .ok caps
  | _, .error error :: _ => .error error
  | none, .ok one :: rest => capsLoop (some one) rest
  | some caps, .ok one :: rest => capsLoop (some (vmctxCpuModelIntersect caps one)) rest

/-- `vmctx_cpu_caps_all`, over the answers of the processors. -/
def vmctxCpuCapsAll (answers : List (Except Errno Model)) : Except Errno Model :=
  match capsLoop none answers with
  | .error error => .error error
  | .ok none => .error .EOPNOTSUPP
  | .ok (some caps) => if vmctxCpuModelValid caps then .ok caps else .error .EOPNOTSUPP

/-! Features as a semilattice. -/

instance : Min Features where
  min x y :=
    ⟨x.leaf1Ecx &&& y.leaf1Ecx, x.leaf1Edx &&& y.leaf1Edx, x.leaf7Ebx &&& y.leaf7Ebx,
      x.leaf7Ecx &&& y.leaf7Ecx, x.leaf7Edx &&& y.leaf7Edx, x.ext1Ecx &&& y.ext1Ecx,
      x.ext1Edx &&& y.ext1Edx, x.xcr0 &&& y.xcr0⟩

theorem inf_def (x y : Features) : x ⊓ y =
    ⟨x.leaf1Ecx &&& y.leaf1Ecx, x.leaf1Edx &&& y.leaf1Edx, x.leaf7Ebx &&& y.leaf7Ebx,
      x.leaf7Ecx &&& y.leaf7Ecx, x.leaf7Edx &&& y.leaf7Edx, x.ext1Ecx &&& y.ext1Ecx,
      x.ext1Edx &&& y.ext1Edx, x.xcr0 &&& y.xcr0⟩ := rfl

/-- Bitwise inclusion of features. -/
instance : SemilatticeInf Features :=
  SemilatticeInf.mk'
    (fun x y => by ext <;> simp [inf_def, UInt32.and_comm, UInt64.and_comm])
    (fun x y z => by ext <;> simp [inf_def, UInt32.and_assoc, UInt64.and_assoc])
    (fun x => by ext <;> simp [inf_def])

theorem le_iff_inf {x y : Features} : x ≤ y ↔ y ⊓ x = x := Iff.rfl

instance : DecidableLE Features := fun x y => inferInstanceAs (Decidable (y ⊓ x = x))

def portable : Features := ⟨cpu1C, cpu1D, cpu7B, 0, 0, cpuEC, cpuED, 7⟩

def xsaveNeed : Features := ⟨cpuXsave, 0, 0, 0, 0, 0, 0, 0⟩

def xsaveLeft : Features := ⟨~~~cpuXsave, -1, -1, -1, -1, -1, -1, 3⟩

def avxNeed : Features := ⟨cpuBit 28, 0, 0, 0, 0, 0, 0, 7⟩

def avxLeft : Features := ⟨~~~cpuAvxDep, -1, ~~~cpuBit 5, -1, -1, -1, -1, 3⟩

def trimmed (x : Features) : Features :=
  Order.impose avxNeed avxLeft (Order.impose xsaveNeed xsaveLeft (x ⊓ portable))

variable {m n a b : Model} {x y : Features}

theorem and_bit28 (w : UInt32) : w &&& cpuBit 28 = 0 ∨ w &&& cpuBit 28 = cpuBit 28 := by
  have bit : (cpuBit 28).toNat = 2 ^ 28 := by decide
  rw [← UInt32.toNat_inj, ← UInt32.toNat_inj, UInt32.toNat_and, bit, Nat.and_two_pow]
  cases w.toNat.testBit 28 <;> simp

theorem and_not {width : Nat} (v w : BitVec width) : v &&& ~~~w = 0 ↔ w &&& v = v := by
  constructor
  · intro outside
    ext i inside
    have bit := congrArg (fun word => word.getLsbD i) outside
    simp [inside] at bit ⊢
    grind
  · intro shared
    ext i inside
    have bit := congrArg (fun word => word.getLsbD i) shared
    simp [inside] at bit ⊢
    grind

theorem and_not32 (v w : UInt32) : v &&& ~~~w = 0 ↔ w &&& v = v := by
  rw [← UInt32.toBitVec_inj, ← UInt32.toBitVec_inj]
  exact and_not v.toBitVec w.toBitVec

theorem and_not64 (v w : UInt64) : v &&& ~~~w = 0 ↔ w &&& v = v := by
  rw [← UInt64.toBitVec_inj, ← UInt64.toBitVec_inj]
  exact and_not v.toBitVec w.toBitVec

theorem trimXsave_features (m : Model) :
    (trimXsave m).toFeatures = Order.impose xsaveNeed xsaveLeft m.toFeatures := by
  have needs : xsaveNeed ≤ m.toFeatures ↔ m.leaf1Ecx &&& cpuXsave = cpuXsave := by
    rw [le_iff_inf, inf_def, xsaveNeed]
    simp
  unfold trimXsave Order.impose
  by_cases has : m.leaf1Ecx &&& cpuXsave = cpuXsave
  · rw [if_neg (not_not.mpr has), if_pos (needs.mpr has)]
  · rw [if_pos has, if_neg (mt needs.mp has), inf_def, xsaveLeft]
    ext <;> simp

theorem trimAvx_features (m : Model) :
    (trimAvx m).toFeatures = Order.impose avxNeed avxLeft m.toFeatures := by
  have needs : avxNeed ≤ m.toFeatures ↔
      ¬ (m.xcr0 &&& 7 ≠ 7 ∨ m.leaf1Ecx &&& cpuBit 28 = 0) := by
    have present : m.leaf1Ecx &&& cpuBit 28 = cpuBit 28 ↔ ¬ m.leaf1Ecx &&& cpuBit 28 = 0 := by
      rcases and_bit28 m.leaf1Ecx with absent | there
      · rw [absent]
        decide
      · rw [there]
        decide
    rw [le_iff_inf, inf_def, avxNeed, not_or, not_not, ← present]
    simp [and_comm]
  unfold trimAvx Order.impose
  by_cases lacks : m.xcr0 &&& 7 ≠ 7 ∨ m.leaf1Ecx &&& cpuBit 28 = 0
  · rw [if_pos lacks, if_neg (fun has => needs.mp has lacks), inf_def, avxLeft]
    ext <;> simp
  · rw [if_neg lacks, if_pos (needs.mpr lacks)]

theorem trim_features (m : Model) : (vmctxCpuModelTrim m).toFeatures = trimmed m.toFeatures := by
  have portable_ : (trimPortable m).toFeatures = m.toFeatures ⊓ portable := by
    ext <;> simp [trimPortable, inf_def, portable]
  rw [vmctxCpuModelTrim, trimAvx_features, trimXsave_features, portable_, trimmed]

/-! Trimming is a closure of the dual order. -/

theorem trimmed_le (x : Features) : trimmed x ≤ x :=
  (Order.impose_le _ _ _).trans ((Order.impose_le _ _ _).trans inf_le_left)

theorem trimmed_mono (below : x ≤ y) : trimmed x ≤ trimmed y :=
  Order.impose_mono _ _ (Order.impose_mono _ _ (inf_le_inf_right portable below))

theorem trimmed_portable (x : Features) : trimmed x ≤ portable :=
  (Order.impose_le _ _ _).trans ((Order.impose_le _ _ _).trans inf_le_right)

theorem trimmed_trimmed (x : Features) : trimmed (trimmed x) = trimmed x := by
  have keeps : xsaveNeed ≤ avxLeft := by decide
  have xsave : Order.impose xsaveNeed xsaveLeft (trimmed x) = trimmed x :=
    Order.impose_impose keeps _
  have avx : Order.impose avxNeed avxLeft (trimmed x) = trimmed x :=
    Order.impose_eq (Order.impose_meets _ _ _)
  calc trimmed (trimmed x)
      = Order.impose avxNeed avxLeft
          (Order.impose xsaveNeed xsaveLeft (trimmed x ⊓ portable)) := rfl
    _ = trimmed x := by rw [inf_eq_left.mpr (trimmed_portable x), xsave, avx]

def trimming : ClosureOperator Featuresᵒᵈ :=
  ClosureOperator.mk' (fun x => OrderDual.toDual (trimmed (OrderDual.ofDual x)))
    (fun _ _ below => trimmed_mono below) (fun x => trimmed_le (OrderDual.ofDual x))
    (fun x => (trimmed_trimmed (OrderDual.ofDual x)).ge)

theorem imposed_trimming (x : Features) : Order.imposed trimming x = trimmed x := rfl

/-! What the operations of the model are. -/

theorem trim_fixed (m : Model) : (vmctxCpuModelTrim m).version = modelVersion ∧
    (vmctxCpuModelTrim m).reserved = 0 ∧ (vmctxCpuModelTrim m).reserved2 = 0 ∧
    (vmctxCpuModelTrim m).leaf7Ecx = 0 ∧ (vmctxCpuModelTrim m).leaf7Edx = 0 := by
  unfold vmctxCpuModelTrim trimAvx
  split <;> (unfold trimXsave; split) <;> exact ⟨rfl, rfl, rfl, rfl, rfl⟩

theorem trim_eq (m : Model) : vmctxCpuModelTrim m = ⟨trimmed m.toFeatures, modelVersion, 0, 0⟩ := by
  obtain ⟨version, reserved, reserved2, -⟩ := trim_fixed m
  have features := trim_features m
  generalize vmctxCpuModelTrim m = c at version reserved reserved2 features
  cases c
  subst version reserved reserved2 features
  rfl

theorem intersect_eq (a b : Model) : vmctxCpuModelIntersect a b =
    ⟨trimmed (a.toFeatures ⊓ b.toFeatures), modelVersion, 0, 0⟩ := trim_eq _

def baseline : Features := ⟨0, cpu1D, 0, 0, 0, 0, cpuED, 3⟩

theorem baseline_le : baseline ≤ x ↔
    x.xcr0 &&& 3 = 3 ∧ x.leaf1Edx &&& cpu1D = cpu1D ∧ x.ext1Edx &&& cpuED = cpuED := by
  rw [le_iff_inf, inf_def, baseline]
  simp only [UInt32.and_zero, Features.mk.injEq, true_and]
  tauto

theorem valid_iff : vmctxCpuModelValid m = true ↔
    vmctxCpuModelTrim m = m ∧ baseline ≤ m.toFeatures := by
  obtain ⟨-, reserved, reserved2, ecx, edx⟩ := trim_fixed m
  rw [baseline_le, Model.ext_iff]
  simp only [vmctxCpuModelValid, Bool.and_eq_true, beq_iff_eq, reserved, reserved2, ecx, edx]
  tauto

theorem trimmed_of_valid (valid : vmctxCpuModelValid m = true) :
    trimmed m.toFeatures = m.toFeatures := by
  rw [← trim_features, (valid_iff.mp valid).1]

theorem subset_iff : vmctxCpuModelSubset m n = true ↔
    vmctxCpuModelValid m = true ∧ m.toFeatures ≤ n.toFeatures := by
  have words : vmctxCpuModelValid m = true → m.leaf7Ecx = 0 ∧ m.leaf7Edx = 0 := by
    intro valid
    obtain ⟨-, -, -, ecx, edx⟩ := trim_fixed m
    rw [(valid_iff.mp valid).1] at ecx edx
    exact ⟨ecx, edx⟩
  rw [le_iff_inf, inf_def]
  simp only [vmctxCpuModelSubset, Bool.and_eq_true, beq_iff_eq, and_not32, and_not64,
    Features.ext_iff]
  constructor
  · rintro ⟨⟨⟨⟨⟨⟨valid, one⟩, two⟩, three⟩, four⟩, five⟩, six⟩
    obtain ⟨ecx, edx⟩ := words valid
    simp [valid, one, two, three, four, five, six, ecx, edx]
  · rintro ⟨valid, one, two, three, -, -, four, five, six⟩
    exact ⟨⟨⟨⟨⟨⟨valid, one⟩, two⟩, three⟩, four⟩, five⟩, six⟩

/-! The contract. -/

def negotiated (first : Model) (rest : List Model) (peer : Model) : Model :=
  vmctxCpuModelIntersect (rest.foldl vmctxCpuModelIntersect first) peer

theorem foldl_features (first : Model) (rest : List Model) :
    (rest.foldl vmctxCpuModelIntersect first).toFeatures =
      (rest.map Model.toFeatures).foldl (fun x y => Order.imposed trimming (x ⊓ y))
        first.toFeatures := by
  induction rest generalizing first with
  | nil => rfl
  | cons one rest ih =>
    rw [List.foldl_cons, ih, intersect_eq]
    rfl

theorem negotiated_eq (first : Model) (rest : List Model) (peer : Model) :
    negotiated first rest peer =
      ⟨trimmed ((rest.map Model.toFeatures).foldl (· ⊓ ·) first.toFeatures ⊓ peer.toFeatures),
        modelVersion, 0, 0⟩ := by
  rw [negotiated, intersect_eq, foldl_features, ← imposed_trimming, Order.imposed_foldl,
    imposed_trimming]

theorem le_meet {first : Model} {rest : List Model} :
    x ≤ (rest.map Model.toFeatures).foldl (· ⊓ ·) first.toFeatures ↔
      ∀ one ∈ first :: rest, x ≤ one.toFeatures := by
  rw [Order.le_foldl_inf]
  simp

theorem capsLoop_some (caps : Model) (answers : List (Except Errno Model)) (result : Model) :
    capsLoop (some caps) answers = .ok (some result) ↔
      ∃ ones : List Model, answers = ones.map .ok ∧
        result = ones.foldl vmctxCpuModelIntersect caps := by
  induction answers generalizing caps with
  | nil =>
    constructor
    · intro done
      cases done
      exact ⟨[], rfl, rfl⟩
    · rintro ⟨ones, none_, rfl⟩
      cases List.map_eq_nil_iff.mp none_.symm
      rfl
  | cons answer answers ih =>
    cases answer with
    | error error =>
      constructor
      · intro failed
        cases failed
      · rintro ⟨ones, mapped, -⟩
        cases ones with
        | nil | cons one ones => cases mapped
    | ok one =>
      rw [capsLoop, ih]
      constructor
      · rintro ⟨ones, rfl, rfl⟩
        exact ⟨one :: ones, rfl, rfl⟩
      · rintro ⟨ones, mapped, folded⟩
        cases ones with
        | nil => cases mapped
        | cons other ones =>
          cases mapped
          exact ⟨ones, rfl, folded⟩

theorem vmctxCpuCapsAll_eq_ok (answers : List (Except Errno Model)) (caps : Model) :
    vmctxCpuCapsAll answers = .ok caps ↔ vmctxCpuModelValid caps = true ∧
      ∃ first rest, answers = (first :: rest).map .ok ∧
        caps = rest.foldl vmctxCpuModelIntersect first := by
  have looped : vmctxCpuCapsAll answers = .ok caps ↔
      vmctxCpuModelValid caps = true ∧ capsLoop none answers = .ok (some caps) := by
    unfold vmctxCpuCapsAll
    split
    · next failed => simp [failed]
    · next nobody => simp [nobody]
    · next result folded =>
      rw [folded]
      by_cases valid : vmctxCpuModelValid result = true
      · rw [if_pos valid]
        constructor
        · intro same
          cases same
          exact ⟨valid, rfl⟩
        · rintro ⟨-, same⟩
          cases same
          rfl
      · rw [if_neg valid]
        constructor
        · intro refused
          cases refused
        · rintro ⟨other, same⟩
          cases same
          exact absurd other valid
  rw [looped]
  refine and_congr_right fun _ => ?_
  cases answers with
  | nil =>
    constructor
    · intro nobody
      cases nobody
    · rintro ⟨first, rest, mapped, -⟩
      cases mapped
  | cons answer answers =>
    cases answer with
    | error error =>
      constructor
      · intro failed
        cases failed
      · rintro ⟨first, rest, mapped, -⟩
        cases mapped
    | ok one =>
      rw [capsLoop, capsLoop_some]
      constructor
      · rintro ⟨ones, rfl, folded⟩
        exact ⟨one, ones, rfl, folded⟩
      · rintro ⟨first, rest, mapped, folded⟩
        cases mapped
        exact ⟨rest, rfl, folded⟩

/-- What negotiation owes its participants. -/
structure Negotiates : Prop where
  /-- A valid model is a subset of two models exactly when it is one of their intersection. -/
  greatest : ∀ a b m, vmctxCpuModelValid m = true →
    ((vmctxCpuModelSubset m a = true ∧ vmctxCpuModelSubset m b = true) ↔
      vmctxCpuModelSubset m (vmctxCpuModelIntersect a b) = true)
  /-- Trimming twice is trimming once. -/
  trim_trim : ∀ m, vmctxCpuModelTrim (vmctxCpuModelTrim m) = vmctxCpuModelTrim m
  /-- Trimming removes features, and adds none. -/
  trim_le : ∀ m, (vmctxCpuModelTrim m).toFeatures ≤ m.toFeatures
  /-- A model with more features keeps more of them. -/
  trim_mono : ∀ m n : Model, m.toFeatures ≤ n.toFeatures →
    (vmctxCpuModelTrim m).toFeatures ≤ (vmctxCpuModelTrim n).toFeatures
  /-- The order of two models is irrelevant. -/
  comm : ∀ a b, vmctxCpuModelIntersect a b = vmctxCpuModelIntersect b a
  /-- And so is the grouping of three. -/
  assoc : ∀ a b c, vmctxCpuModelIntersect (vmctxCpuModelIntersect a b) c =
    vmctxCpuModelIntersect a (vmctxCpuModelIntersect b c)
  /-- A valid model is its own intersection. -/
  idem : ∀ m, vmctxCpuModelValid m = true → vmctxCpuModelIntersect m m = m
  /-- Valid models have a valid intersection. -/
  valid : ∀ a b, vmctxCpuModelValid a = true → vmctxCpuModelValid b = true →
    vmctxCpuModelValid (vmctxCpuModelIntersect a b) = true
  /-- The capabilities of a machine are what all its processors have, and are valid. -/
  caps : ∀ answers caps, vmctxCpuCapsAll answers = .ok caps ↔
    vmctxCpuModelValid caps = true ∧ ∃ first rest, answers = (first :: rest).map .ok ∧
      caps = rest.foldl vmctxCpuModelIntersect first
  /-- The result depends on the processors and the peer, not on order or repetition. -/
  order : ∀ first rest first' rest' peer,
    (∀ one, one ∈ first :: rest ↔ one ∈ first' :: rest') →
    negotiated first rest peer = negotiated first' rest' peer
  /-- No feature is exposed that a participant lacks. -/
  exposes : ∀ first rest peer, ∀ one ∈ peer :: first :: rest,
    (negotiated first rest peer).toFeatures ≤ one.toFeatures
  /-- A valid model that every participant supports is a subset of the result. -/
  covers : ∀ first rest peer m, vmctxCpuModelValid m = true →
    (∀ one ∈ peer :: first :: rest, vmctxCpuModelSubset m one = true) →
    vmctxCpuModelSubset m (negotiated first rest peer) = true

theorem le_trimmed_iff (closed : trimmed x = x) : x ≤ trimmed y ↔ x ≤ y := by
  constructor
  · intro below
    exact below.trans (trimmed_le y)
  · intro below
    rw [← closed]
    exact trimmed_mono below

/-- Trimming and intersecting cpu models find the largest model that both sides have. -/
theorem cpu_model_negotiates : Negotiates := by
  refine ⟨?_, ?_, ?_, ?_, ?_, ?_, ?_, ?_, ?_, ?_, ?_, ?_⟩
  · intro a b m valid
    rw [subset_iff, subset_iff, subset_iff, intersect_eq, le_trimmed_iff (trimmed_of_valid valid),
      le_inf_iff]
    tauto
  · intro m
    rw [trim_eq, trim_eq, trimmed_trimmed]
  · intro m
    rw [trim_features]
    exact trimmed_le _
  · intro m n below
    rw [trim_features, trim_features]
    exact trimmed_mono below
  · intro a b
    rw [intersect_eq, intersect_eq, inf_comm]
  · intro a b c
    have absorbs : ∀ x y : Features, trimmed (trimmed x ⊓ y) = trimmed (x ⊓ y) :=
      Order.imposed_inf_left trimming
    have right : trimmed (a.toFeatures ⊓ trimmed (b.toFeatures ⊓ c.toFeatures)) =
        trimmed (a.toFeatures ⊓ (b.toFeatures ⊓ c.toFeatures)) := by
      rw [inf_comm, absorbs, inf_comm]
    simp only [intersect_eq, absorbs, right, inf_assoc]
  · intro m valid
    rw [intersect_eq, inf_idem, ← trim_eq]
    exact (valid_iff.mp valid).1
  · intro a b validA validB
    obtain ⟨-, baseA⟩ := valid_iff.mp validA
    obtain ⟨-, baseB⟩ := valid_iff.mp validB
    have closed : trimmed baseline = baseline := by decide
    rw [valid_iff, intersect_eq]
    refine ⟨?_, ?_⟩
    · rw [trim_eq, trimmed_trimmed]
    · exact (le_trimmed_iff closed).mpr (le_inf baseA baseB)
  · exact vmctxCpuCapsAll_eq_ok
  · intro first rest first' rest' peer same
    have meets : (rest.map Model.toFeatures).foldl (· ⊓ ·) first.toFeatures =
        (rest'.map Model.toFeatures).foldl (· ⊓ ·) first'.toFeatures := by
      refine eq_of_forall_le_iff fun x => ?_
      rw [le_meet, le_meet]
      simp only [same]
    rw [negotiated_eq, negotiated_eq, meets]
  · intro first rest peer one member
    rw [negotiated_eq]
    refine (trimmed_le _).trans ?_
    rcases List.mem_cons.mp member with rfl | participant
    · exact inf_le_right
    · exact inf_le_left.trans (le_meet.mp (le_refl _) one participant)
  · intro first rest peer m valid supported
    rw [subset_iff, negotiated_eq, le_trimmed_iff (trimmed_of_valid valid), le_inf_iff, le_meet]
    have included : ∀ one ∈ peer :: first :: rest, m.toFeatures ≤ one.toFeatures :=
      fun one member => (subset_iff.mp (supported one member)).2
    exact ⟨valid, fun one member => included one (List.mem_cons_of_mem peer member),
      included peer List.mem_cons_self⟩

end Vmctx.CpuModel
