import Mathlib.Algebra.GroupWithZero.Nat
/-!
# Byte images and tagged records

An image gives the byte at each position of an area. A run of records holds, for each tag of a list,
the tag and the size of its data as words of four bytes, then the data. The sizes of the tags fix
where each record starts, so a reader that knows them finds the data that a writer put there.
-/

namespace Vmctx.Bytes

abbrev Image := Nat → UInt8

def blank : Image := fun _ => 0

/-- Copy `len` bytes of `source` from `start` to `place` in `target`. -/
def copy (source : Image) (start len : Nat) (target : Image) (place : Nat) : Image := fun pos =>
  if place ≤ pos ∧ pos < place + len then source (start + (pos - place)) else target pos

variable {source target : Image} {value start len place pos k : Nat}

theorem copy_inside (inside : k < len) :
    copy source start len target place (place + k) = source (start + k) := by
  have within : place ≤ place + k ∧ place + k < place + len := by omega
  rw [copy, if_pos within, Nat.add_sub_cancel_left]

theorem copy_outside (outside : pos < place ∨ place + len ≤ pos) :
    copy source start len target place pos = target pos := by
  have without : ¬(place ≤ pos ∧ pos < place + len) := by omega
  rw [copy, if_neg without]

def word (image : Image) (pos : Nat) : Nat :=
  (image pos).toNat + 256 * ((image (pos + 1)).toNat +
    256 * ((image (pos + 2)).toNat + 256 * (image (pos + 3)).toNat))

def putWord (value : Nat) (target : Image) (place : Nat) : Image :=
  copy (fun k => UInt8.ofNat (value / 256 ^ k)) 0 4 target place

theorem putWord_outside (outside : pos < place ∨ place + 4 ≤ pos) :
    putWord value target place pos = target pos :=
  copy_outside outside

theorem word_congr {image other : Image} (same : ∀ k, k < 4 → image (pos + k) = other (pos + k)) :
    word image pos = word other pos := by
  have zero := same 0 (by decide)
  have one := same 1 (by decide)
  have two := same 2 (by decide)
  have three := same 3 (by decide)
  simp only [Nat.add_zero] at zero
  simp only [word, zero, one, two, three]

theorem word_putWord (small : value < 2 ^ 32) :
    word (putWord value target place) place = value := by
  have stored : ∀ k, k < 4 →
      (putWord value target place (place + k)).toNat = value / 256 ^ k % 256 := by
    intro k inside
    rw [putWord, copy_inside inside, Nat.zero_add]
    exact UInt8.toNat_ofNat'
  have zero := stored 0 (by decide)
  have one := stored 1 (by decide)
  have two := stored 2 (by decide)
  have three := stored 3 (by decide)
  simp only [Nat.add_zero] at zero
  simp only [word, zero, one, two, three]
  omega

section
variable {size other : Nat → Nat} {image : Image} {stop : Nat}

/-- From the cursor on the image holds one record for each tag, and the last one ends at `stop`. -/
def Records (size : Nat → Nat) (image : Image) (stop : Nat) : List Nat → Nat → Prop
  | [], cursor => cursor = stop
  | tag :: rest, cursor =>
    word image cursor = tag ∧ word image (cursor + 4) = size tag ∧
      Records size image stop rest (cursor + 8 + size tag)

def span (size : Nat → Nat) (tags : List Nat) : Nat := (tags.map fun tag => 8 + size tag).sum

@[simp] theorem span_nil : span size [] = 0 := rfl

@[simp] theorem span_cons (tag : Nat) (rest : List Nat) :
    span size (tag :: rest) = 8 + size tag + span size rest := by
  simp [span]

def dataStart (size : Nat → Nat) : List Nat → Nat → Nat → Nat
  | [], cursor, _ => cursor
  | tag :: rest, cursor, wanted =>
    if wanted = tag then cursor + 8 else dataStart size rest (cursor + 8 + size tag) wanted

variable {cursor tag wanted : Nat} {rest tags : List Nat}

theorem dataStart_head : dataStart size (tag :: rest) cursor tag = cursor + 8 :=
  if_pos rfl

theorem dataStart_tail (other : wanted ≠ tag) :
    dataStart size (tag :: rest) cursor wanted =
      dataStart size rest (cursor + 8 + size tag) wanted :=
  if_neg other

theorem Records.stop_eq (records : Records size image stop tags cursor) :
    stop = cursor + span size tags := by
  induction tags generalizing cursor with
  | nil => exact records.symm
  | cons tag rest ih =>
    have ends := ih records.2.2
    rw [span_cons]
    omega

theorem Records.resize (records : Records size image stop tags cursor)
    (same : ∀ tag ∈ tags, size tag = other tag) : Records other image stop tags cursor := by
  induction tags generalizing cursor with
  | nil => exact records
  | cons tag rest ih =>
    have equal := same tag List.mem_cons_self
    have later := ih records.2.2 fun tag mem => same tag (List.mem_cons_of_mem _ mem)
    rw [Records, ← equal]
    exact ⟨records.1, records.2.1, later⟩

theorem dataStart_resize (same : ∀ tag ∈ tags, size tag = other tag) (wanted : Nat) :
    dataStart size tags cursor wanted = dataStart other tags cursor wanted := by
  induction tags generalizing cursor with
  | nil => rfl
  | cons tag rest ih =>
    have equal := same tag List.mem_cons_self
    have later := @ih (cursor + 8 + other tag) fun tag mem => same tag (List.mem_cons_of_mem _ mem)
    rw [dataStart, dataStart, equal, later]

theorem Records.data_lt (records : Records size image stop tags cursor) (mem : wanted ∈ tags)
    (inside : k < size wanted) : dataStart size tags cursor wanted + k < stop := by
  induction tags generalizing cursor with
  | nil => cases mem
  | cons tag rest ih =>
    have ends := records.2.2.stop_eq
    by_cases same : wanted = tag
    · subst same
      rw [dataStart_head]
      omega
    · rw [dataStart_tail same]
      exact ih records.2.2 ((List.mem_cons.mp mem).resolve_left same)

theorem Records.copied {image' : Image} (records : Records size image stop tags cursor)
    (same : ∀ pos, cursor ≤ pos → pos < stop → image' pos = image pos) :
    Records size image' stop tags cursor := by
  induction tags generalizing cursor with
  | nil => exact records
  | cons tag rest ih =>
    have ends := records.2.2.stop_eq
    have first : word image' cursor = word image cursor :=
      word_congr fun k small => same _ (by omega) (by omega)
    have second : word image' (cursor + 4) = word image (cursor + 4) :=
      word_congr fun k small => same _ (by omega) (by omega)
    have later := ih records.2.2 fun pos low high => same pos (by omega) high
    exact ⟨first.trans records.1, second.trans records.2.1, later⟩

end

end Vmctx.Bytes
