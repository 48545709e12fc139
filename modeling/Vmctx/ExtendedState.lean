import Vmctx.Bytes.Records
import Vmctx.CpuModel
/-!
# Extended processor state between hosts

The extended state of a processor has a save area whose first 576 bytes are architectural. Each
further component has a region whose place depends on the processor. GETCPU writes the active
components as records in the order of their numbers, and SETCPU places the data of the records in
the regions of the receiving processor. The prefix that the records fill is what travels.

`Bytes.Records` says what a run of records holds. GETCPU writes one and SETCPU accepts nothing else.
-/

namespace Vmctx.ExtendedState

open Vmctx.Bytes List

/-! The save area of a host. -/

def xstateMax : Nat := 16384

/-- What the identification instruction and the kernel say about the extended state of a host. -/
structure Areas where
  maxFeatures : BitVec 64
  maxSize : Nat
  taskSizeMax : Nat
  bytes : Nat → Nat
  offset : Nat → Nat

def Areas.Supports (a : Areas) (i : Nat) : Prop := 2 ≤ i ∧ a.maxFeatures.getLsbD i = true

def Areas.Covers (a : Areas) (i pos : Nat) : Prop :=
  a.offset i ≤ pos ∧ pos < a.offset i + a.bytes i

/-- A host whose save area fits the buffers: the kernel refuses both operations on any other.
The supported components have regions inside the area, apart from each other. -/
structure Host extends Areas where
  fits : maxSize ≤ xstateMax
  nonempty : ∀ i, toAreas.Supports i → 0 < bytes i
  above : ∀ i, toAreas.Supports i → 576 ≤ offset i
  within : ∀ i, toAreas.Supports i → offset i + bytes i ≤ maxSize
  apart : ∀ i j, toAreas.Supports i → toAreas.Supports j → i ≠ j →
    offset i + bytes i ≤ offset j ∨ offset j + bytes j ≤ offset i

/-- `struct vmctx_cpu_state`, with the two registers that SETCPU checks. -/
structure CpuState where
  xstateSize : Nat
  reserved : Nat
  fsBase : Nat
  gsBase : Nat
  xstate : Image

def sub32 (a b : Nat) : Nat := (a + 2 ^ 32 - b) % 2 ^ 32

theorem sub32_of_le {a b : Nat} (le : b ≤ a) (small : a < 2 ^ 32) : sub32 a b = a - b := by
  rw [sub32, show a + 2 ^ 32 - b = (a - b) + 2 ^ 32 by omega, Nat.add_mod_right]
  exact Nat.mod_eq_of_lt (by omega)

/-- The mask of the active components, `xstate_bv` of the header. -/
def activeMask (xstate : Image) : BitVec 64 :=
  BitVec.ofNat 64 (word xstate 512 + 2 ^ 32 * word xstate 516)

def components : List Nat := List.range' 2 62

def activeComponents (active : BitVec 64) : List Nat := components.filter active.getLsbD

/-! GETCPU. -/

def encodeComponents (a : Areas) (raw : Image) (active : BitVec 64) :
    List Nat → Nat → Image → Except Errno (Nat × Image)
  | [], cursor, xstate => .ok (cursor, xstate)
  | i :: rest, cursor, xstate =>
    if active.getLsbD i then
      if a.bytes i = 0 ∨ xstateMax - 8 < cursor ∨
          sub32 (sub32 xstateMax cursor) 8 < a.bytes i ∨
          a.maxSize < a.offset i ∨ sub32 a.maxSize (a.offset i) < a.bytes i then
        .error .EOVERFLOW
      else
        let tagged := putWord (a.bytes i) (putWord i xstate cursor) (cursor + 4)
        encodeComponents a raw active rest (cursor + (8 + a.bytes i))
          (copy raw (a.offset i) (a.bytes i) tagged (cursor + 8))
    else encodeComponents a raw active rest cursor xstate

/-- The architectural bytes of the buffer, without the metadata that the kernel keeps in them. -/
def legacy (raw : Image) : Image := copy blank 0 48 (copy raw 0 576 blank 0) 464

/-- `vmctx_ctl_cpu` for a read, after the save area of the stopped task was copied to `raw`. -/
def getcpu (a : Areas) (raw : Image) (fsBase gsBase : Nat) : Except Errno CpuState :=
  let active := activeMask (legacy raw)
  match encodeComponents a raw active components 576 (legacy raw) with
  | .error e => .error e
  | .ok (cursor, xstate) =>
    .ok
      { xstateSize := cursor, reserved := 0, fsBase := fsBase, gsBase := gsBase, xstate := xstate }

/-! The wire. -/

def xstateOffset : Nat := 176

/-- `vmr_cpu_wire_size`. -/
def vmrCpuWireSize (cpu : CpuState) : Except Errno Nat :=
  if cpu.reserved ≠ 0 ∨ cpu.xstateSize < 576 ∨ xstateMax < cpu.xstateSize then .error .EPROTO
  else .ok (xstateOffset + cpu.xstateSize)

/-- `vmr_cpu_wire_decode`: the bytes after the received ones are cleared. -/
def vmrCpuWireDecode (cpu : CpuState) (len : Nat) : Except Errno CpuState :=
  if len < xstateOffset ∨ xstateOffset + xstateMax < len then .error .EPROTO
  else
    match vmrCpuWireSize cpu with
    | .error e => .error e
    | .ok size =>
      if len ≠ size then .error .EPROTO
      else
        let cleared := xstateOffset + xstateMax - len
        .ok { cpu with xstate := copy blank 0 cleared cpu.xstate (len - xstateOffset) }

/-- The receiver's buffer: the sent bytes over whatever the buffer held before. -/
def received (cpu : CpuState) (before : Image) : CpuState :=
  { cpu with xstate := copy cpu.xstate 0 cpu.xstateSize before 0 }

/-! SETCPU. -/

def decodeComponents (a : Areas) (size : Nat) (xstate : Image) (active : BitVec 64) :
    List Nat → Nat → Image → Except Errno (Nat × Image)
  | [], cursor, raw => .ok (cursor, raw)
  | i :: rest, cursor, raw =>
    if active.getLsbD i then
      if sub32 size cursor < 8 then .error .EINVAL
      else
        let id := word xstate cursor
        let len := word xstate (cursor + 4)
        if id ≠ i ∨ len ≠ a.bytes i ∨ a.bytes i = 0 ∨ sub32 size (cursor + 8) < len ∨
            a.maxSize < a.offset i ∨ sub32 a.maxSize (a.offset i) < a.bytes i then
          .error .EINVAL
        else
          decodeComponents a size xstate active rest (cursor + 8 + a.bytes i)
            (copy xstate (cursor + 8) (a.bytes i) raw (a.offset i))
    else decodeComponents a size xstate active rest cursor raw

def Within (active features : BitVec 64) : Prop := active &&& ~~~features = 0

instance (active features : BitVec 64) : Decidable (Within active features) :=
  inferInstanceAs (Decidable (_ = _))

/-- The host has the components of the mask, and so has the negotiated model once there is one. -/
def Supported (a : Areas) (model : Option CpuModel.Model) (active : BitVec 64) : Prop :=
  Within active a.maxFeatures ∧ ∀ m ∈ model, Within active m.xcr0.toBitVec

instance (a : Areas) (model : Option CpuModel.Model) (active : BitVec 64) :
    Decidable (Supported a model active) :=
  inferInstanceAs (Decidable (_ ∧ _))

def CpuState.Framed (a : Areas) (s : CpuState) : Prop :=
  s.reserved = 0 ∧ 576 ≤ s.xstateSize ∧ s.xstateSize ≤ xstateMax ∧
    s.fsBase < a.taskSizeMax ∧ s.gsBase < a.taskSizeMax

instance (a : Areas) (s : CpuState) : Decidable (s.Framed a) :=
  inferInstanceAs (Decidable (_ ∧ _))

/-- `vmctx_ctl_cpu` for a write, up to the save area it hands to the stopped task. -/
def setcpu (a : Areas) (model : Option CpuModel.Model) (s : CpuState) : Except Errno Image :=
  if ¬s.Framed a then .error .EINVAL
  else
    let raw := copy s.xstate 0 576 blank 0
    let active := activeMask s.xstate
    if ¬Supported a model active then .error .EOPNOTSUPP
    else
      match decodeComponents a s.xstateSize s.xstate active components 576 raw with
      | .error e => .error e
      | .ok (cursor, raw) => if cursor ≠ s.xstateSize then .error .EINVAL else .ok raw

/-! The components of a mask. -/

variable {i pos : Nat} {a : Areas} {out raw xstate : Image} {s : CpuState}
  {model : Option CpuModel.Model}

theorem mem_activeComponents {active : BitVec 64} :
    i ∈ activeComponents active ↔ 2 ≤ i ∧ active.getLsbD i = true := by
  rw [activeComponents, mem_filter, components, mem_range'_1]
  constructor
  · intro ⟨range, bit⟩
    exact ⟨range.1, bit⟩
  · intro ⟨low, bit⟩
    have high := BitVec.lt_of_getLsbD bit
    exact ⟨⟨low, by omega⟩, bit⟩

theorem Within.getLsbD {active features : BitVec 64} (within : Within active features)
    (bit : active.getLsbD i = true) : features.getLsbD i = true := by
  have high := BitVec.lt_of_getLsbD bit
  have clear : (active &&& ~~~features).getLsbD i = false := by
    rw [within]
    exact BitVec.getLsbD_zero
  simpa [bit, high] using clear

theorem Within.supports {active : BitVec 64} (within : Within active a.maxFeatures) :
    ∀ i ∈ activeComponents active, a.Supports i := by
  intro i mem
  have found := mem_activeComponents.mp mem
  exact ⟨found.1, within.getLsbD found.2⟩

/-! What the loop of GETCPU writes. -/

section
variable {h : Host} {active : BitVec 64}

theorem Host.offset_le (supports : h.Supports i) : h.offset i ≤ h.maxSize := by
  have within := h.within i supports
  omega

theorem Host.room (supports : h.Supports i) : h.bytes i ≤ sub32 h.maxSize (h.offset i) := by
  have within := h.within i supports
  have small : h.maxSize < 2 ^ 32 := Nat.lt_of_le_of_lt h.fits (by decide)
  rw [sub32_of_le (h.offset_le supports) small]
  omega

theorem Host.bytes_lt (supports : h.Supports i) : h.bytes i < 2 ^ 32 := by
  have within := h.within i supports
  have small : h.maxSize < 2 ^ 32 := Nat.lt_of_le_of_lt h.fits (by decide)
  omega

/-- What the loop leaves: the bytes around the records as they were, and in each record the region
of its component. -/
structure Encoded (a : Areas) (raw : Image) (ids : List Nat) (cursor : Nat)
    (xstate out : Image) : Prop where
  records : Records a.bytes out (cursor + span a.bytes ids) ids cursor
  before : ∀ pos, pos < cursor → out pos = xstate pos
  data : ∀ i ∈ ids, ∀ k, k < a.bytes i →
    out (dataStart a.bytes ids cursor i + k) = raw (a.offset i + k)

variable {cursor size : Nat} {rest ids : List Nat}

theorem Encoded.cons (number : i < 2 ^ 32) (small : a.bytes i < 2 ^ 32)
    (encoded : Encoded a raw rest (cursor + (8 + a.bytes i))
      (copy raw (a.offset i) (a.bytes i)
        (putWord (a.bytes i) (putWord i xstate cursor) (cursor + 4)) (cursor + 8)) out) :
    Encoded a raw (i :: rest) cursor xstate out := by
  have kept := encoded.before
  have first : word out cursor = i := by
    rw [← @word_putWord xstate i cursor number]
    apply word_congr
    intro k inside
    rw [kept _ (by omega), copy_outside (by omega), putWord_outside (by omega)]
  have second : word out (cursor + 4) = a.bytes i := by
    rw [← @word_putWord (putWord i xstate cursor) (a.bytes i) (cursor + 4) small]
    apply word_congr
    intro k inside
    rw [kept _ (by omega), copy_outside (by omega)]
  have assoc : cursor + (8 + a.bytes i) = cursor + 8 + a.bytes i := by omega
  constructor
  · have later := encoded.records
    rw [assoc] at later
    rw [span_cons, ← Nat.add_assoc, ← Nat.add_assoc]
    exact ⟨first, second, later⟩
  · intro pos below
    rw [kept pos (by omega), copy_outside (by omega), putWord_outside (by omega),
      putWord_outside (by omega)]
  · intro j mem k inside
    by_cases same : j = i
    · subst same
      rw [dataStart_head, kept _ (by omega), copy_inside inside]
    · rw [dataStart_tail same, ← assoc]
      exact encoded.data j ((mem_cons.mp mem).resolve_left same) k inside

theorem encodeComponents_ok (raw : Image) {ids : List Nat} {cursor : Nat} (xstate : Image)
    (numbers : ∀ i ∈ ids, i < 64) (supported : ∀ i ∈ ids.filter active.getLsbD, h.Supports i)
    (fits : cursor + span h.bytes (ids.filter active.getLsbD) ≤ xstateMax) :
    ∃ out, encodeComponents h.toAreas raw active ids cursor xstate =
        .ok (cursor + span h.bytes (ids.filter active.getLsbD), out) ∧
      Encoded h.toAreas raw (ids.filter active.getLsbD) cursor xstate out := by
  induction ids generalizing cursor xstate with
  | nil => exact ⟨xstate, rfl, rfl, fun _ _ => rfl, nofun⟩
  | cons i rest ih =>
    have later : ∀ j ∈ rest, j < 64 := fun j mem => numbers j (mem_cons_of_mem i mem)
    by_cases bit : active.getLsbD i = true
    · rw [filter_cons_of_pos bit] at supported fits ⊢
      rw [span_cons] at fits
      have supports := supported i mem_cons_self
      have number := numbers i mem_cons_self
      have passes : ¬(h.bytes i = 0 ∨ xstateMax - 8 < cursor ∨
          sub32 (sub32 xstateMax cursor) 8 < h.bytes i ∨
          h.maxSize < h.offset i ∨ sub32 h.maxSize (h.offset i) < h.bytes i) := by
        have limit : xstateMax = 16384 := rfl
        have nonempty := h.nonempty i supports
        have inside := h.offset_le supports
        have room := h.room supports
        rw [sub32_of_le (a := xstateMax) (by omega) (by decide), sub32_of_le (by omega) (by omega)]
        omega
      obtain ⟨out, ran, encoded⟩ := @ih (cursor + (8 + h.bytes i))
        (copy raw (h.offset i) (h.bytes i)
          (putWord (h.bytes i) (putWord i xstate cursor) (cursor + 4)) (cursor + 8)) later
        (fun j mem => supported j (mem_cons_of_mem i mem)) (by omega)
      refine ⟨out, ?_, encoded.cons (by omega) (h.bytes_lt supports)⟩
      rw [Nat.add_assoc, ← span_cons] at ran
      rw [encodeComponents, if_pos bit, if_neg passes]
      exact ran
    · rw [filter_cons_of_neg bit] at supported fits ⊢
      rw [encodeComponents, if_neg bit]
      exact ih xstate later supported fits

/-! What the loop of SETCPU accepts and places. -/

theorem decodeComponents_records {stop : Nat} (low : cursor ≤ size) (small : size < 2 ^ 32)
    (ran : decodeComponents a size xstate active ids cursor raw = .ok (stop, out)) :
    Records a.bytes xstate stop (ids.filter active.getLsbD) cursor := by
  induction ids generalizing cursor raw with
  | nil =>
    cases ran
    rfl
  | cons i rest ih =>
    by_cases bit : active.getLsbD i = true
    · rw [decodeComponents, if_pos bit] at ran
      by_cases short : sub32 size cursor < 8
      · rw [if_pos short] at ran
        cases ran
      · rw [if_neg short] at ran
        simp only [] at ran
        split at ran
        · cases ran
        · rename_i passes
          rw [sub32_of_le low small] at short
          rw [sub32_of_le (a := size) (by omega) small] at passes
          have number : word xstate cursor = i := by omega
          have sized : word xstate (cursor + 4) = a.bytes i := by omega
          rw [filter_cons_of_pos bit]
          exact ⟨number, sized, ih (by omega) ran⟩
    · rw [decodeComponents, if_neg bit] at ran
      rw [filter_cons_of_neg bit]
      exact ih low ran

/-- What the loop leaves: the data of each record in the region of its component, and the bytes
outside the regions as they were. -/
structure Placed (a : Areas) (xstate : Image) (ids : List Nat) (cursor : Nat)
    (raw out : Image) : Prop where
  data : ∀ i ∈ ids, ∀ k, k < a.bytes i →
    out (a.offset i + k) = xstate (dataStart a.bytes ids cursor i + k)
  around : ∀ pos, (∀ i ∈ ids, ¬a.Covers i pos) → out pos = raw pos

theorem Placed.cons (supported : ∀ j ∈ i :: rest, h.Supports j) (fresh : i ∉ rest)
    (placed : Placed h.toAreas xstate rest (cursor + 8 + h.bytes i)
      (copy xstate (cursor + 8) (h.bytes i) raw (h.offset i)) out) :
    Placed h.toAreas xstate (i :: rest) cursor raw out := by
  constructor
  · intro j mem k inside
    by_cases same : j = i
    · subst same
      have untouched : ∀ l ∈ rest, ¬h.Covers l (h.offset j + k) := by
        intro l later covers
        have distinct : l ≠ j := by
          intro equal
          exact fresh (equal ▸ later)
        have apart := h.apart l j (supported l (mem_cons_of_mem j later))
          (supported j mem_cons_self) distinct
        have low := covers.1
        have high := covers.2
        omega
      rw [dataStart_head, placed.around _ untouched, copy_inside inside]
    · rw [dataStart_tail same]
      exact placed.data j ((mem_cons.mp mem).resolve_left same) k inside
  · intro pos outside
    have apart : ¬h.Covers i pos := outside i mem_cons_self
    rw [placed.around pos fun j mem => outside j (mem_cons_of_mem i mem)]
    apply copy_outside
    rw [Areas.Covers] at apart
    omega

theorem decodeComponents_ok (raw : Image) (small : size < 2 ^ 32) (distinct : ids.Nodup)
    (supported : ∀ i ∈ ids.filter active.getLsbD, h.Supports i)
    (records : Records h.bytes xstate size (ids.filter active.getLsbD) cursor) :
    ∃ out, decodeComponents h.toAreas size xstate active ids cursor raw = .ok (size, out) ∧
      Placed h.toAreas xstate (ids.filter active.getLsbD) cursor raw out := by
  induction ids generalizing cursor raw with
  | nil =>
    have ends : cursor = size := records
    exact ⟨raw, by rw [decodeComponents, ends], nofun, fun _ _ => rfl⟩
  | cons i rest ih =>
    have later := (nodup_cons.mp distinct).2
    by_cases bit : active.getLsbD i = true
    · rw [filter_cons_of_pos bit] at supported records ⊢
      have fresh : i ∉ rest.filter active.getLsbD := fun mem =>
        (nodup_cons.mp distinct).1 (mem_filter.mp mem).1
      have supports := supported i mem_cons_self
      have ends := records.2.2.stop_eq
      have enough : ¬sub32 size cursor < 8 := by
        rw [sub32_of_le (by omega) small]
        omega
      have passes : ¬(word xstate cursor ≠ i ∨ word xstate (cursor + 4) ≠ h.bytes i ∨
          h.bytes i = 0 ∨ sub32 size (cursor + 8) < word xstate (cursor + 4) ∨
          h.maxSize < h.offset i ∨ sub32 h.maxSize (h.offset i) < h.bytes i) := by
        have number := records.1
        have sized := records.2.1
        have nonempty := h.nonempty i supports
        have inside := h.offset_le supports
        have room := h.room supports
        rw [sub32_of_le (a := size) (by omega) small]
        omega
      obtain ⟨out, ran, placed⟩ := ih (copy xstate (cursor + 8) (h.bytes i) raw (h.offset i)) later
        (fun j mem => supported j (mem_cons_of_mem i mem)) records.2.2
      refine ⟨out, ?_, placed.cons supported fresh⟩
      rw [decodeComponents, if_pos bit, if_neg enough, if_neg passes]
      exact ran
    · rw [filter_cons_of_neg bit] at supported records ⊢
      rw [decodeComponents, if_neg bit]
      exact ih raw later supported records

end

/-! The operations. -/

theorem legacy_kernel (inside : 464 ≤ pos ∧ pos < 512) : legacy raw pos = 0 := by
  rw [legacy, show pos = 464 + (pos - 464) by omega, copy_inside (by omega)]
  rfl

theorem legacy_kept (inside : pos < 576) (outside : ¬(464 ≤ pos ∧ pos < 512)) :
    legacy raw pos = raw pos := by
  rw [legacy, copy_outside (by omega), show pos = 0 + pos by omega, copy_inside inside]

theorem activeMask_congr {image other : Image}
    (same : ∀ pos, 512 ≤ pos → pos < 520 → image pos = other pos) :
    activeMask image = activeMask other := by
  have low : word image 512 = word other 512 :=
    word_congr fun k small => same _ (by omega) (by omega)
  have high : word image 516 = word other 516 :=
    word_congr fun k small => same _ (by omega) (by omega)
  rw [activeMask, activeMask, low, high]

theorem activeMask_legacy (raw : Image) : activeMask (legacy raw) = activeMask raw :=
  activeMask_congr fun pos low high => legacy_kept (by omega) (by omega)

theorem getcpu_ok {h : Host} (fsBase gsBase : Nat) (within : Within (activeMask raw) h.maxFeatures)
    (fits : 576 + span h.bytes (activeComponents (activeMask raw)) ≤ xstateMax) :
    ∃ xstate, getcpu h.toAreas raw fsBase gsBase =
        .ok { xstateSize := 576 + span h.bytes (activeComponents (activeMask raw)), reserved := 0,
              fsBase := fsBase, gsBase := gsBase, xstate := xstate } ∧
      Encoded h.toAreas raw (activeComponents (activeMask raw)) 576 (legacy raw) xstate := by
  have numbers : ∀ i ∈ components, i < 64 := by
    intro i mem
    have range := mem_range'_1.mp mem
    omega
  obtain ⟨out, ran, encoded⟩ :=
    encodeComponents_ok raw (legacy raw) numbers within.supports fits
  refine ⟨out, ?_, encoded⟩
  rw [getcpu, activeMask_legacy]
  simp only [ran]
  rfl

/-- What SETCPU takes: one record for each active component, in the order of their numbers and
with the sizes of this host, fills the buffer after the architectural bytes. -/
structure Accepted (a : Areas) (model : Option CpuModel.Model) (s : CpuState) : Prop where
  framed : s.Framed a
  supported : Supported a model (activeMask s.xstate)
  records : Records a.bytes s.xstate s.xstateSize (activeComponents (activeMask s.xstate)) 576

theorem CpuState.Framed.lt (framed : s.Framed a) : s.xstateSize < 2 ^ 32 := by
  have limit : s.xstateSize ≤ 16384 := framed.2.2.1
  omega

theorem setcpu_ok {h : Host} (accepted : Accepted h.toAreas model s) :
    ∃ out, setcpu h.toAreas model s = .ok out ∧
      Placed h.toAreas s.xstate (activeComponents (activeMask s.xstate)) 576
        (copy s.xstate 0 576 blank 0) out := by
  obtain ⟨out, ran, placed⟩ := decodeComponents_ok (copy s.xstate 0 576 blank 0)
    accepted.framed.lt (nodup_range' 1 (by decide)) accepted.supported.1.supports
    accepted.records
  refine ⟨out, ?_, placed⟩
  rw [setcpu, if_neg (not_not_intro accepted.framed)]
  simp only [accepted.supported, not_true, if_false, components, ran, ne_eq]

theorem accepted_of_setcpu (ran : setcpu a model s = .ok out) : Accepted a model s := by
  rw [setcpu] at ran
  by_cases framed : s.Framed a
  · rw [if_neg (not_not_intro framed)] at ran
    by_cases supported : Supported a model (activeMask s.xstate)
    · simp only [supported, not_true, if_false] at ran
      cases decoded : decodeComponents a s.xstateSize s.xstate (activeMask s.xstate) components 576
          (copy s.xstate 0 576 blank 0) with
      | error e => simp [decoded] at ran
      | ok result =>
        obtain ⟨cursor, raw⟩ := result
        have records := decodeComponents_records framed.2.1 framed.lt decoded
        simp only [decoded] at ran
        by_cases filled : cursor = s.xstateSize
        · exact ⟨framed, supported, filled ▸ records⟩
        · rw [if_pos filled] at ran
          cases ran
    · simp [supported] at ran
  · simp [framed] at ran

theorem vmrCpuWireSize_ok (clear : s.reserved = 0) (low : 576 ≤ s.xstateSize)
    (high : s.xstateSize ≤ xstateMax) : vmrCpuWireSize s = .ok (xstateOffset + s.xstateSize) := by
  rw [vmrCpuWireSize, if_neg]
  omega

theorem vmrCpuWireDecode_received {s : CpuState} (before : Image) (clear : s.reserved = 0)
    (low : 576 ≤ s.xstateSize) (high : s.xstateSize ≤ xstateMax) :
    ∃ xstate, vmrCpuWireDecode (received s before) (xstateOffset + s.xstateSize) =
        .ok { s with xstate := xstate } ∧
      ∀ pos, pos < s.xstateSize → xstate pos = s.xstate pos := by
  have sized : vmrCpuWireSize (received s before) = .ok (xstateOffset + s.xstateSize) :=
    vmrCpuWireSize_ok clear low high
  have ran : vmrCpuWireDecode (received s before) (xstateOffset + s.xstateSize) =
      .ok { s with
        xstate := copy blank 0 (xstateOffset + xstateMax - (xstateOffset + s.xstateSize))
          (received s before).xstate (xstateOffset + s.xstateSize - xstateOffset) } := by
    rw [vmrCpuWireDecode, if_neg (by omega), sized]
    exact if_neg (not_not_intro rfl)
  refine ⟨_, ran, ?_⟩
  intro pos inside
  rw [copy_outside (by omega)]
  show copy s.xstate 0 s.xstateSize before 0 pos = s.xstate pos
  rw [show pos = 0 + pos by omega, copy_inside inside]

/-- The area that SETCPU rebuilds on the second host from the one that GETCPU read on the first. -/
structure Rebuilt (first second : Areas) (ids : List Nat) (raw out : Image) : Prop where
  legacy : ∀ pos, pos < 576 → out pos = if 464 ≤ pos ∧ pos < 512 then 0 else raw pos
  regions : ∀ i ∈ ids, ∀ k, k < second.bytes i →
    out (second.offset i + k) = raw (first.offset i + k)
  elsewhere : ∀ pos, 576 ≤ pos → (∀ i ∈ ids, ¬second.Covers i pos) → out pos = 0

theorem setcpu_rebuilds {first second : Host} (framed : s.Framed second.toAreas)
    (supported : Supported second.toAreas model (activeMask raw))
    (same : ∀ i ∈ activeComponents (activeMask raw), first.bytes i = second.bytes i)
    (encoded :
      Encoded first.toAreas raw (activeComponents (activeMask raw)) 576 (legacy raw) xstate)
    (sized : s.xstateSize = 576 + span first.bytes (activeComponents (activeMask raw)))
    (copied : ∀ pos, pos < s.xstateSize → s.xstate pos = xstate pos) :
    ∃ out, setcpu second.toAreas model s = .ok out ∧
      Rebuilt first.toAreas second.toAreas (activeComponents (activeMask raw)) raw out := by
  have low := framed.2.1
  have head : ∀ pos, pos < 576 → s.xstate pos = legacy raw pos := by
    intro pos inside
    rw [copied pos (by omega), encoded.before pos inside]
  have mask : activeMask s.xstate = activeMask raw := by
    rw [← activeMask_legacy raw]
    exact activeMask_congr fun pos _ high => head pos (by omega)
  have records :
      Records first.bytes s.xstate s.xstateSize (activeComponents (activeMask raw)) 576 := by
    rw [sized]
    exact encoded.records.copied fun pos _ high => copied pos (by omega)
  have accepted : Accepted second.toAreas model s := by
    refine ⟨framed, ?_, ?_⟩ <;> rw [mask]
    · exact supported
    · exact records.resize same
  obtain ⟨out, ran, placed⟩ := setcpu_ok accepted
  rw [mask] at placed
  refine ⟨out, ran, ?_, ?_, ?_⟩
  · intro pos inside
    have outside : ∀ i ∈ activeComponents (activeMask raw), ¬second.Covers i pos := by
      intro i mem covers
      have above := second.above i (supported.1.supports i mem)
      have start := covers.1
      omega
    rw [placed.around pos outside, show pos = 0 + pos by omega, copy_inside inside, Nat.zero_add,
      head pos inside]
    split
    · rename_i kernel
      exact legacy_kernel kernel
    · rename_i kept
      exact legacy_kept inside kept
  · intro i mem k inside
    have owned : k < first.bytes i := by
      rw [same i mem]
      exact inside
    have data := records.data_lt mem owned
    rw [placed.data i mem k inside, ← dataStart_resize same i, copied _ data]
    exact encoded.data i mem k owned
  · intro pos above outside
    rw [placed.around pos outside, copy_outside (by omega)]
    rfl

/-- What the cpu controls of two hosts owe the state they exchange. -/
structure Travels (first second : Host) : Prop where
  /-- A state that both hosts and the negotiated model support is read and rebuilt, also from a
  buffer that held other bytes before the wire filled it. -/
  rebuilds : ∀ (model : Option CpuModel.Model) (raw : Image) (fsBase gsBase : Nat),
    fsBase < second.taskSizeMax → gsBase < second.taskSizeMax →
    Within (activeMask raw) first.maxFeatures →
    Supported second.toAreas model (activeMask raw) →
    (∀ i ∈ activeComponents (activeMask raw), first.bytes i = second.bytes i) →
    576 + span first.bytes (activeComponents (activeMask raw)) ≤ xstateMax →
    ∃ sent, getcpu first.toAreas raw fsBase gsBase = .ok sent ∧
      (∃ out, setcpu second.toAreas model sent = .ok out ∧
        Rebuilt first.toAreas second.toAreas (activeComponents (activeMask raw)) raw out) ∧
      ∃ len, vmrCpuWireSize sent = .ok len ∧
        ∀ before, ∃ got, vmrCpuWireDecode (received sent before) len = .ok got ∧
          ∃ out, setcpu second.toAreas model got = .ok out ∧
            Rebuilt first.toAreas second.toAreas (activeComponents (activeMask raw)) raw out
  /-- A state is accepted exactly when it is well formed and supported. -/
  accepts : ∀ (model : Option CpuModel.Model) (s : CpuState),
    (∃ out, setcpu second.toAreas model s = .ok out) ↔ Accepted second.toAreas model s

def Host.single (offset : Nat) (above : 576 ≤ offset) (within : offset + 256 ≤ xstateMax) :
    Host where
  maxFeatures := 7
  maxSize := xstateMax
  taskSizeMax := 2 ^ 47
  bytes _ := 256
  offset _ := offset
  fits := Nat.le_refl _
  nonempty _ _ := by decide
  above _ _ := above
  within _ _ := within
  apart i j first second distinct := by
    have only : ∀ k, k < 64 → 2 ≤ k → (7 : BitVec 64).getLsbD k = true → k = 2 := by decide
    have left := only i (BitVec.lt_of_getLsbD first.2) first.1 first.2
    have right := only j (BitVec.lt_of_getLsbD second.2) second.1 second.2
    exact absurd (left.trans right.symm) distinct

/-- Extended state that one host reports and another accepts arrives there unchanged. -/
theorem extended_state_travels (first second : Host) : Travels first second := by
  constructor
  · intro model raw fsBase gsBase fsLow gsLow within supported same fits
    obtain ⟨xstate, ran, encoded⟩ := getcpu_ok fsBase gsBase within fits
    have low : 576 ≤ 576 + span first.bytes (activeComponents (activeMask raw)) :=
      Nat.le_add_right _ _
    refine ⟨_, ran, ?_, ?_⟩
    · exact setcpu_rebuilds ⟨rfl, low, fits, fsLow, gsLow⟩ supported same encoded rfl
        fun _ _ => rfl
    · refine ⟨_, vmrCpuWireSize_ok rfl low fits, ?_⟩
      intro before
      obtain ⟨got, decoded, copied⟩ := @vmrCpuWireDecode_received
        ⟨_, 0, fsBase, gsBase, xstate⟩ before rfl low fits
      refine ⟨_, decoded, ?_⟩
      exact setcpu_rebuilds ⟨rfl, low, fits, fsLow, gsLow⟩ supported same encoded rfl copied
  · intro model s
    constructor
    · rintro ⟨out, ran⟩
      exact accepted_of_setcpu ran
    · intro accepted
      obtain ⟨out, ran, _⟩ := setcpu_ok accepted
      exact ⟨out, ran⟩

-- Two hosts that keep component 2 at different offsets, and a state in which it is active.
example :
    let first := Host.single 576 (by decide) (by decide)
    let second := Host.single 832 (by decide) (by decide)
    let raw : Image := fun pos => if pos = 512 then 7 else if pos < 512 ∨ 576 ≤ pos then 1 else 0
    let sent := (getcpu first.toAreas raw 0 0).toOption
    let placed := sent.bind fun s => (setcpu second.toAreas none s).toOption
    sent.map (fun s => (s.xstateSize, s.xstate 576)) = some (840, 2) ∧
      placed.map (fun out => [out 463, out 464, out 700, out 832, out 1088]) =
        some [1, 0, 0, 1, 0] := by
  decide +kernel

end Vmctx.ExtendedState
