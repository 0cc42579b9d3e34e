import Aesd.CircularBuffer.Core
import Aesd.Library.Window
import Mathlib.Tactic.Common

/-!
# The circular buffer as a queue of the last ten entries

The two offsets and the full flag encode where the retained entries are.
`WellFormed` is the representation invariant, `retained` reads the entries
oldest first, and an addition refines `Window.push`. The position lookup always
walks ten slots; `find_eq_scan` turns its loop into a scan of that walk, and
`find_eq_locate` into a position in the concatenation of the retained entries.
-/

namespace Aesd.AesdCircularBuffer

universe u

variable {Pointer : Type u}

/-- Number of retained entries. -/
def count (buffer : AesdCircularBuffer Pointer) : Nat :=
  if buffer.full then maxWriteOperations else buffer.inOffs

/-- The retained entries, oldest first. -/
def retained (buffer : AesdCircularBuffer Pointer) : List (AesdBufferEntry Pointer) :=
  Window.window buffer.slot maxWriteOperations buffer.outOffs buffer.count

/-- All ten slots in the order the lookup walks them. -/
def walk (buffer : AesdCircularBuffer Pointer) : List (AesdBufferEntry Pointer) :=
  Window.window buffer.slot maxWriteOperations buffer.outOffs maxWriteOperations

/-- The representation invariant of every buffer built by additions. -/
structure WellFormed (buffer : AesdCircularBuffer Pointer) : Prop where
  inOffs_lt : buffer.inOffs < maxWriteOperations
  outOffs_lt : buffer.outOffs < maxWriteOperations
  full_offs : buffer.full = true → buffer.inOffs = buffer.outOffs
  open_offs : buffer.full = false → buffer.outOffs = 0
  unused : buffer.full = false → ∀ index, buffer.inOffs ≤ index → buffer.slot index = .zero

@[simp] theorem length_retained (buffer : AesdCircularBuffer Pointer) :
    buffer.retained.length = buffer.count := by
  simp [retained]

@[simp] theorem retained_init :
    (aesdCircularBufferInit : AesdCircularBuffer Pointer).retained = [] := rfl

theorem wellFormed_init : (aesdCircularBufferInit : AesdCircularBuffer Pointer).WellFormed where
  inOffs_lt := Nat.succ_pos _
  outOffs_lt := Nat.succ_pos _
  full_offs := by simp [aesdCircularBufferInit]
  open_offs := fun _ => rfl
  unused := fun _ index _ => slot_init index

theorem slot_of_le (buffer : AesdCircularBuffer Pointer) {index : Nat}
    (outside : maxWriteOperations ≤ index) : buffer.slot index = .zero := by
  simp [slot, outside]

/-- A slot with bytes is a slot of the array. -/
theorem lt_of_slot_size_pos (buffer : AesdCircularBuffer Pointer) {index : Nat}
    (nonempty : 0 < (buffer.slot index).size.toNat) : index < maxWriteOperations := by
  by_contra outside
  rw [slot_of_le _ (by omega)] at nonempty
  simp [AesdBufferEntry.zero] at nonempty

namespace WellFormed

variable {buffer : AesdCircularBuffer Pointer}

theorem count_le (wf : buffer.WellFormed) : buffer.count ≤ maxWriteOperations := by
  unfold count
  split
  · exact le_rfl
  · exact wf.inOffs_lt.le

/-- The buffer is full exactly when it retains ten entries. -/
theorem full_iff (wf : buffer.WellFormed) :
    buffer.full = true ↔ buffer.retained.length = maxWriteOperations := by
  rw [length_retained, count]
  cases buffer.full with
  | true => simp
  | false => simpa using wf.inOffs_lt.ne

/-- A buffer that is not full has room. -/
theorem length_retained_lt (wf : buffer.WellFormed) (room : buffer.full = false) :
    buffer.retained.length < maxWriteOperations := by
  rw [length_retained, count, room]
  exact wf.inOffs_lt

theorem addEntry (wf : buffer.WellFormed) (entry : AesdBufferEntry Pointer) :
    (buffer.aesdCircularBufferAddEntry entry).2.WellFormed := by
  have slots : ∀ index, index ≠ buffer.inOffs →
      (buffer.aesdCircularBufferAddEntry entry).2.slot index = buffer.slot index :=
    fun _ => slot_addEntry_of_ne buffer entry
  rw [snd_addEntry] at slots ⊢
  cases wasFull : buffer.full with
  | true =>
      have together := wf.full_offs wasFull
      exact {
        inOffs_lt := advance_lt wf.inOffs_lt
        outOffs_lt := by simpa [wasFull] using advance_lt wf.outOffs_lt
        full_offs := by simp [together]
        open_offs := by simp
        unused := by simp }
  | false =>
      have start := wf.open_offs wasFull
      have room := wf.inOffs_lt
      exact {
        inOffs_lt := advance_lt room
        outOffs_lt := by simpa [wasFull] using wf.outOffs_lt
        full_offs := by simp [start]
        open_offs := by simp [start]
        unused := by
          intro stillOpen index above
          simp only [wasFull, Bool.false_eq_true, if_false] at slots
          have grown : advance buffer.inOffs = buffer.inOffs + 1 := by
            simp only [start, Bool.false_or, decide_eq_false_iff_not] at stillOpen
            unfold advance at stillOpen ⊢
            split at stillOpen
            · exact absurd rfl stillOpen
            · rw [if_neg ‹_›]
          simp only [grown] at above
          have fresh := wf.unused wasFull index (by omega)
          simpa [fresh] using slots index (by omega) }

/-- An addition is a push on the queue of retained entries. -/
theorem retained_addEntry (wf : buffer.WellFormed) (entry : AesdBufferEntry Pointer) :
    (buffer.aesdCircularBufferAddEntry entry).2.retained =
      Window.push maxWriteOperations buffer.retained entry := by
  have stored := slot_addEntry_self buffer entry wf.inOffs_lt
  have others : ∀ index, index ≠ buffer.inOffs →
      (buffer.aesdCircularBufferAddEntry entry).2.slot index = buffer.slot index :=
    fun _ => slot_addEntry_of_ne buffer entry
  cases wasFull : buffer.full with
  | true =>
      have together := wf.full_offs wasFull
      have full : buffer.retained.length = maxWriteOperations := wf.full_iff.mp wasFull
      rw [Window.push_of_eq full (by decide)]
      have outOffs : (buffer.aesdCircularBufferAddEntry entry).2.outOffs =
          (buffer.outOffs + 1) % maxWriteOperations := by
        simpa [snd_addEntry, wasFull] using advance_eq_mod wf.outOffs_lt
      have whole : (buffer.aesdCircularBufferAddEntry entry).2.count = maxWriteOperations := by
        simp [count, snd_addEntry, wasFull]
      rw [retained, outOffs, whole, retained, count, if_pos wasFull]
      exact Window.window_replace wf.outOffs_lt (together ▸ stored) (together ▸ others)
  | false =>
      have start := wf.open_offs wasFull
      have room := wf.inOffs_lt
      have target : (buffer.outOffs + buffer.inOffs) % maxWriteOperations = buffer.inOffs := by
        rw [start, Nat.zero_add, Nat.mod_eq_of_lt room]
      have outOffs : (buffer.aesdCircularBufferAddEntry entry).2.outOffs = buffer.outOffs := by
        simp [snd_addEntry, wasFull]
      have grown : (buffer.aesdCircularBufferAddEntry entry).2.count = buffer.inOffs + 1 := by
        simp only [count, snd_addEntry, wasFull, start, Bool.false_or, decide_eq_true_eq, advance]
        split <;> simp_all
      rw [Window.push_of_lt (by simpa [count, wasFull] using room), retained, outOffs, grown,
        retained, count, if_neg (by simp [wasFull])]
      exact Window.window_append room (target.symm ▸ stored) (target.symm ▸ others)

/-- The walk of the lookup is the retained entries, then entries of no bytes. -/
theorem walk_eq (wf : buffer.WellFormed) :
    buffer.walk =
      buffer.retained ++ List.replicate (maxWriteOperations - buffer.count) .zero := by
  rw [walk, retained]
  obtain ⟨rest, total⟩ : ∃ rest, maxWriteOperations = buffer.count + rest :=
    ⟨_, (Nat.add_sub_cancel' wf.count_le).symm⟩
  conv_lhs => rw [show Window.window buffer.slot maxWriteOperations buffer.outOffs
    maxWriteOperations = Window.window buffer.slot maxWriteOperations buffer.outOffs
      (buffer.count + rest) by rw [← total]]
  rw [Window.window_add, show maxWriteOperations - buffer.count = rest by omega]
  congr 1
  apply List.eq_replicate_iff.mpr
  refine ⟨Window.length_window .., fun entry member => ?_⟩
  obtain ⟨offset, inside, rfl⟩ := List.mem_map.mp member
  cases wasFull : buffer.full with
  | true =>
      simp only [count, wasFull, if_true] at total
      simp only [List.mem_range] at inside
      omega
  | false =>
      have start := wf.open_offs wasFull
      simp only [count, wasFull, Bool.false_eq_true, if_false, start, Nat.zero_add,
        Nat.mod_add_mod, List.mem_range] at total inside ⊢
      rw [Nat.mod_eq_of_lt (by omega)]
      exact wf.unused wasFull _ (by omega)

end WellFormed

/-- The slot of a retained entry. -/
theorem slot_of_retained {buffer : AesdCircularBuffer Pointer} {index : Nat}
    {entry : AesdBufferEntry Pointer}
    (selected : buffer.retained[index]? = some entry) :
    buffer.slot ((buffer.outOffs + index) % maxWriteOperations) = entry := by
  have inside : index < buffer.count := by
    simpa using (List.getElem?_eq_some_iff.mp selected).1
  rw [retained, Window.getElem?_window _ inside] at selected
  exact Option.some.inj selected

/-- Overwriting the entry just added is the same as adding the other entry. -/
theorem setSlot_addEntry (buffer : AesdCircularBuffer Pointer)
    (entry other : AesdBufferEntry Pointer) :
    (buffer.aesdCircularBufferAddEntry entry).2.setSlot buffer.inOffs other =
      (buffer.aesdCircularBufferAddEntry other).2 := by
  simp only [snd_addEntry, setSlot, mk.injEq, and_true]
  ext index inside
  by_cases same : buffer.inOffs = index <;> simp [same]

/-- Every entry of the array, as a slot or as a member of the walk. -/
theorem mem_walk_iff {buffer : AesdCircularBuffer Pointer} (wf : buffer.WellFormed)
    (entry : AesdBufferEntry Pointer) :
    entry ∈ buffer.walk ↔ ∃ index < maxWriteOperations, buffer.slot index = entry := by
  simp only [walk, Window.window, List.mem_map, List.mem_range]
  constructor
  · rintro ⟨offset, -, rfl⟩
    exact ⟨_, Nat.mod_lt _ (by decide), rfl⟩
  · rintro ⟨index, inside, rfl⟩
    have start := wf.outOffs_lt
    refine ⟨(index + (maxWriteOperations - buffer.outOffs)) % maxWriteOperations,
      Nat.mod_lt _ (by decide), ?_⟩
    rw [Nat.add_mod_mod, show buffer.outOffs + (index + (maxWriteOperations - buffer.outOffs)) =
      index + maxWriteOperations by omega, Nat.add_mod_right, Nat.mod_eq_of_lt inside]

/-! ## The position lookup -/

private theorem findLoop_eq_scan (buffer : AesdCircularBuffer Pointer) (charOffset : UInt64)
    (remaining : Nat) (totalBytes tmpOffset : UInt64) (readOffset : Nat)
    (bound : readOffset < maxWriteOperations) (passed : totalBytes ≤ charOffset) :
    findResult charOffset
        (buffer.findLoop charOffset remaining totalBytes tmpOffset readOffset) =
      match Locate.scan charOffset
          ((Window.window buffer.slot maxWriteOperations readOffset remaining).map (·.size))
          totalBytes tmpOffset with
      | none => (none, 0)
      | some (index, offset) => (some ((readOffset + index) % maxWriteOperations), offset) := by
  induction remaining generalizing totalBytes tmpOffset readOffset with
  | zero => simp [findLoop, findResult, Locate.scan, passed]
  | succ remaining ih =>
      rw [Window.window_succ', List.map_cons, Nat.mod_eq_of_lt bound]
      simp only [findLoop, Locate.scan]
      by_cases inside : charOffset < totalBytes + (buffer.slot readOffset).size
      · simp [findResult, inside, UInt64.not_le.mpr inside, Nat.mod_eq_of_lt bound]
      · rw [if_neg inside, if_neg inside, ih _ _ _ (advance_lt bound) (UInt64.not_lt.mp inside),
          advance_eq_mod bound]
        cases Locate.scan charOffset
            ((Window.window buffer.slot maxWriteOperations ((readOffset + 1) %
              maxWriteOperations) remaining).map (·.size))
            (totalBytes + (buffer.slot readOffset).size)
            (tmpOffset - (buffer.slot readOffset).size) with
        | none => rfl
        | some found =>
            simp only [Option.map_some, Nat.mod_add_mod, Nat.add_assoc, Nat.add_comm 1]

/-- The lookup scans the sizes of the ten slots from the oldest on. -/
theorem find_eq_scan {buffer : AesdCircularBuffer Pointer} (wf : buffer.WellFormed)
    (charOffset : UInt64) :
    buffer.aesdCircularBufferFindEntryOffsetForFpos charOffset =
      match Locate.scan charOffset (buffer.walk.map (·.size)) 0 charOffset with
      | none => (none, 0)
      | some (index, offset) =>
          (some ((buffer.outOffs + index) % maxWriteOperations), offset) :=
  findLoop_eq_scan buffer charOffset maxWriteOperations 0 charOffset buffer.outOffs
    wf.outOffs_lt (UInt64.le_iff_toNat_le.mpr (Nat.zero_le _))

/-- The sizes of the retained entries, oldest first. -/
def sizes (buffer : AesdCircularBuffer Pointer) : List Nat :=
  buffer.retained.map fun entry => entry.size.toNat

/-- The sum of the sizes of the ten entries of the array. -/
def totalSize (buffer : AesdCircularBuffer Pointer) : Nat :=
  ((List.range maxWriteOperations).map fun index => (buffer.slot index).size.toNat).sum

/-- Slots that retain no entry add nothing to the total. -/
theorem WellFormed.totalSize_eq {buffer : AesdCircularBuffer Pointer} (wf : buffer.WellFormed) :
    buffer.totalSize = buffer.sizes.sum := by
  have walked := Window.window_perm (fun index => (buffer.slot index).size.toNat) wf.outOffs_lt
  have same : Window.window (fun index => (buffer.slot index).size.toNat) maxWriteOperations
      buffer.outOffs maxWriteOperations = buffer.walk.map fun entry => entry.size.toNat := by
    simp [walk, Window.window]
  rw [totalSize, ← walked.sum_eq, same, wf.walk_eq, List.map_append, List.sum_append,
    List.map_replicate]
  simp [sizes, AesdBufferEntry.zero]

/-- An addition pushes its size. -/
theorem WellFormed.sizes_addEntry {buffer : AesdCircularBuffer Pointer} (wf : buffer.WellFormed)
    (entry : AesdBufferEntry Pointer) :
    (buffer.aesdCircularBufferAddEntry entry).2.sizes =
      Window.push maxWriteOperations buffer.sizes entry.size.toNat := by
  rw [sizes, wf.retained_addEntry, Window.push, Window.rtake_map, List.map_append,
    List.map_singleton]
  rfl

/-- As long as the retained sizes stay below `2 ^ 64` together, the lookup finds
the position in the concatenation of the retained entries. -/
theorem find_eq_locate {buffer : AesdCircularBuffer Pointer} (wf : buffer.WellFormed)
    (noWrap : buffer.sizes.sum < 2 ^ 64) (charOffset : UInt64) :
    buffer.aesdCircularBufferFindEntryOffsetForFpos charOffset =
      match Locate.locate buffer.sizes charOffset.toNat with
      | none => (none, 0)
      | some (index, offset) =>
          (some ((buffer.outOffs + index) % maxWriteOperations), .ofNat offset) := by
  have walked : (buffer.walk.map (·.size)).map UInt64.toNat =
      buffer.sizes ++ List.replicate (maxWriteOperations - buffer.count) 0 := by
    rw [wf.walk_eq, List.map_map, List.map_append, List.map_replicate]
    rfl
  have noWrapWalk : ((buffer.walk.map (·.size)).map UInt64.toNat).sum < 2 ^ 64 := by
    rw [walked, List.sum_append]
    simpa using noWrap
  rw [find_eq_scan wf, Locate.scan_eq_locate _ _ noWrapWalk, walked,
    Locate.locate_append_replicate_zero]
  cases Locate.locate buffer.sizes charOffset.toNat with
  | none => rfl
  | some found => rfl

end Aesd.AesdCircularBuffer
