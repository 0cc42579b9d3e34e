import Aesd.Library.Locate
import Mathlib.Tactic.Common

/-!
# The circular buffer of the driver

`aesd-circular-buffer.c`, function by function. The buffer stores pointers it
never looks into, so the pointer type is a parameter; `none` is `NULL`. A
pointer to an entry of the array is the index of its slot.

The callers always pass the address of a live buffer, of a live entry and of a
live offset variable, so the null tests at the head of the functions have no
counterpart here.
-/

namespace Aesd

universe u

/-- `AESDCHAR_MAX_WRITE_OPERATIONS_SUPPORTED`. -/
abbrev maxWriteOperations : Nat := 10

/-- `struct aesd_buffer_entry`. -/
structure AesdBufferEntry (Pointer : Type u) where
  buffptr : Option Pointer
  size : UInt64
  deriving DecidableEq, Repr

/-- An entry of zero bytes, as `memset` leaves it. -/
def AesdBufferEntry.zero {Pointer : Type u} : AesdBufferEntry Pointer := ⟨none, 0⟩

/-- `struct aesd_circular_buffer`. -/
structure AesdCircularBuffer (Pointer : Type u) where
  entry : Vector (AesdBufferEntry Pointer) maxWriteOperations
  inOffs : Nat
  outOffs : Nat
  full : Bool
  deriving DecidableEq, Repr

namespace AesdCircularBuffer

variable {Pointer : Type u}

/-- `buffer->entry[index]`. -/
def slot (buffer : AesdCircularBuffer Pointer) (index : Nat) : AesdBufferEntry Pointer :=
  buffer.entry[index]?.getD .zero

/-- Store into `buffer->entry[index]`. -/
def setSlot (buffer : AesdCircularBuffer Pointer) (index : Nat)
    (value : AesdBufferEntry Pointer) : AesdCircularBuffer Pointer :=
  { buffer with entry := buffer.entry.setIfInBounds index value }

/-- Increment of an array offset, reset to zero at the end of the array. -/
def advance (offs : Nat) : Nat :=
  if offs + 1 = maxWriteOperations then 0 else offs + 1

/-- `aesd_circular_buffer_init`: everything zero. -/
def aesdCircularBufferInit : AesdCircularBuffer Pointer where
  entry := Vector.replicate maxWriteOperations .zero
  inOffs := 0
  outOffs := 0
  full := false

/-- `aesd_circular_buffer_add_entry`. The result is a pointer into the array the
same call then stores into, so it is returned as the index of a slot. -/
def aesdCircularBufferAddEntry (buffer : AesdCircularBuffer Pointer)
    (addEntry : AesdBufferEntry Pointer) : Option Nat × AesdCircularBuffer Pointer :=
  let res := if buffer.full then some buffer.outOffs else none
  let buffer :=
    if buffer.full then { buffer with outOffs := advance buffer.outOffs } else buffer
  let buffer := buffer.setSlot buffer.inOffs addEntry
  let buffer := { buffer with inOffs := advance buffer.inOffs }
  let buffer :=
    if buffer.full = false ∧ buffer.inOffs = buffer.outOffs then
      { buffer with full := true }
    else
      buffer
  (res, buffer)

/-- The loop of `aesd_circular_buffer_find_entry_offset_for_fpos`: the values of
`total_bytes`, `tmp_offset` and `read_offset` after at most `remaining` more
iterations. -/
def findLoop (buffer : AesdCircularBuffer Pointer) (charOffset : UInt64) :
    Nat → UInt64 → UInt64 → Nat → UInt64 × UInt64 × Nat
  | 0, totalBytes, tmpOffset, readOffset => (totalBytes, tmpOffset, readOffset)
  | remaining + 1, totalBytes, tmpOffset, readOffset =>
      let totalBytes := totalBytes + (buffer.slot readOffset).size
      if charOffset < totalBytes then
        (totalBytes, tmpOffset, readOffset)
      else
        findLoop buffer charOffset remaining totalBytes
          (tmpOffset - (buffer.slot readOffset).size) (advance readOffset)

/-- The tail of `aesd_circular_buffer_find_entry_offset_for_fpos`, from the values
the loop left. The test `total_bytes < 0` on an unsigned total is always false. -/
def findResult (charOffset : UInt64) : UInt64 × UInt64 × Nat → Option Nat × UInt64
  | (totalBytes, tmpOffset, readOffset) =>
      if totalBytes ≤ charOffset then (none, 0) else (some readOffset, tmpOffset)

/-- `aesd_circular_buffer_find_entry_offset_for_fpos`: the slot of the entry and
`*entry_offset_byte_rtn`. -/
def aesdCircularBufferFindEntryOffsetForFpos (buffer : AesdCircularBuffer Pointer)
    (charOffset : UInt64) : Option Nat × UInt64 :=
  findResult charOffset
    (buffer.findLoop charOffset maxWriteOperations 0 charOffset buffer.outOffs)

/-! ## Slots -/

@[simp] theorem slot_setSlot_self (buffer : AesdCircularBuffer Pointer) {index : Nat}
    (value : AesdBufferEntry Pointer) (inside : index < maxWriteOperations) :
    (buffer.setSlot index value).slot index = value := by
  simp [slot, setSlot, inside]

theorem slot_setSlot_of_ne (buffer : AesdCircularBuffer Pointer) {index other : Nat}
    (value : AesdBufferEntry Pointer) (different : other ≠ index) :
    (buffer.setSlot index value).slot other = buffer.slot other := by
  simp [slot, setSlot, different.symm]

@[simp] theorem slot_init (index : Nat) :
    (aesdCircularBufferInit : AesdCircularBuffer Pointer).slot index = .zero := by
  rw [slot, aesdCircularBufferInit, Vector.getElem?_replicate]
  split <;> rfl

theorem advance_lt {offs : Nat} (bound : offs < maxWriteOperations) :
    advance offs < maxWriteOperations := by
  unfold advance maxWriteOperations at *
  split <;> omega

theorem advance_eq_mod {offs : Nat} (bound : offs < maxWriteOperations) :
    advance offs = (offs + 1) % maxWriteOperations := by
  unfold advance maxWriteOperations at *
  split <;> omega

/-! ## What one addition does -/

/-- The buffer after an addition, field by field. -/
theorem snd_addEntry (buffer : AesdCircularBuffer Pointer)
    (addEntry : AesdBufferEntry Pointer) :
    (buffer.aesdCircularBufferAddEntry addEntry).2 =
      { entry := buffer.entry.setIfInBounds buffer.inOffs addEntry
        inOffs := advance buffer.inOffs
        outOffs := if buffer.full then advance buffer.outOffs else buffer.outOffs
        full := buffer.full || decide (advance buffer.inOffs = buffer.outOffs) } := by
  unfold aesdCircularBufferAddEntry
  cases wasFull : buffer.full
  · by_cases meets : advance buffer.inOffs = buffer.outOffs <;> simp [wasFull, meets, setSlot]
  · simp [setSlot]

/-- The returned slot is the oldest one of a full buffer. -/
theorem fst_addEntry (buffer : AesdCircularBuffer Pointer)
    (addEntry : AesdBufferEntry Pointer) :
    (buffer.aesdCircularBufferAddEntry addEntry).1 =
      if buffer.full then some buffer.outOffs else none := rfl

/-- The slot the new entry goes to. -/
theorem slot_addEntry_self (buffer : AesdCircularBuffer Pointer)
    (addEntry : AesdBufferEntry Pointer) (inside : buffer.inOffs < maxWriteOperations) :
    (buffer.aesdCircularBufferAddEntry addEntry).2.slot buffer.inOffs = addEntry := by
  rw [snd_addEntry]
  exact slot_setSlot_self buffer addEntry inside

/-- Every other slot is left alone. -/
theorem slot_addEntry_of_ne (buffer : AesdCircularBuffer Pointer)
    (addEntry : AesdBufferEntry Pointer) {index : Nat} (different : index ≠ buffer.inOffs) :
    (buffer.aesdCircularBufferAddEntry addEntry).2.slot index = buffer.slot index := by
  rw [snd_addEntry]
  exact slot_setSlot_of_ne buffer addEntry different

end AesdCircularBuffer

end Aesd
