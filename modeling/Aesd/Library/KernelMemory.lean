import Mathlib.Data.Finset.Basic
import Mathlib.Data.Fintype.Basic
import Mathlib.Tactic.Common

/-!
# Kernel memory blocks

`kmalloc`, `krealloc`, `kfree` and the two user copies over an explicit set of
live blocks. A block has a size and cells; a cell that nobody has stored to, or
that lies outside of every live block, reads as `none`. Which block an
allocation gets is a proposal of the environment: no proposal, or the proposal
of a block that is already live, is a failed allocation. So every theorem holds
for every allocator, also for one that reuses the identifiers of freed blocks.

The memory keeps a record of the calls that hand a pointer back to the allocator
and of the ranges the user copies touch. The code never looks at it.
-/

namespace KernelMemory

abbrev BlockId := Nat

/-- What a non-null pointer of the allocator points to. `zeroSize` is
`ZERO_SIZE_PTR`, the result of allocating no bytes. -/
inductive Address where
  | zeroSize
  | block (id : BlockId)
  deriving DecidableEq, Repr

/-- A kernel pointer; `none` is `NULL`. -/
abbrev Pointer := Option Address

/-- One byte of memory, `none` when its value is not known. -/
abbrev Cell := Option UInt8

structure Block where
  size : Nat
  cell : Nat → Cell

/-- One recorded call: a pointer given back to the allocator with the blocks live
at that moment, or the range of a user copy with the size of the block it is
in. -/
inductive Call where
  | kfree (pointer : Pointer) (live : Finset BlockId)
  | krealloc (pointer : Pointer) (live : Finset BlockId)
  | copyFromUser (offset : Int) (count size : Nat)
  | copyToUser (offset : Int) (count size : Nat)
  deriving DecidableEq

/-- The pointer is `NULL`, the zero-size pointer or a live block. -/
def ValidIn (live : Finset BlockId) : Pointer → Prop
  | some (.block id) => id ∈ live
  | _ => True

instance (live : Finset BlockId) : (pointer : Pointer) → Decidable (ValidIn live pointer)
  | none => .isTrue trivial
  | some .zeroSize => .isTrue trivial
  | some (.block id) => inferInstanceAs (Decidable (id ∈ live))

/-- A call that gives back a pointer gives back a valid one. -/
def Call.PointerValid : Call → Prop
  | .kfree pointer live => ValidIn live pointer
  | .krealloc pointer live => ValidIn live pointer
  | _ => True

/-- A user copy stays inside of its block. -/
def Call.InBounds : Call → Prop
  | .copyFromUser offset count size => 0 ≤ offset ∧ offset + count ≤ size
  | .copyToUser offset count size => 0 ≤ offset ∧ offset + count ≤ size
  | _ => True

instance : (call : Call) → Decidable call.InBounds
  | .copyFromUser offset count size =>
      inferInstanceAs (Decidable (0 ≤ offset ∧ offset + count ≤ size))
  | .copyToUser offset count size =>
      inferInstanceAs (Decidable (0 ≤ offset ∧ offset + count ≤ size))
  | .kfree _ _ => .isTrue trivial
  | .krealloc _ _ => .isTrue trivial

/-- The blocks of the allocator and the record of calls, newest first. -/
structure Memory where
  live : Finset BlockId
  block : BlockId → Block
  calls : List Call

namespace Memory

/-- No live block. -/
def empty : Memory := ⟨∅, fun _ => ⟨0, fun _ => none⟩, []⟩

/-- Size of the block a pointer points to. -/
def sizeOf (mem : Memory) : Pointer → Nat
  | some (.block id) => if id ∈ mem.live then (mem.block id).size else 0
  | _ => 0

/-- The cell at an index of the block a pointer points to. -/
def cell (mem : Memory) (pointer : Pointer) (index : Nat) : Cell :=
  match pointer with
  | some (.block id) =>
      if id ∈ mem.live ∧ index < (mem.block id).size then (mem.block id).cell index else none
  | _ => none

/-- The cell at an index of a block; `none` where the block does not have one. -/
def place (mem : Memory) (pointer : Pointer) (index : Nat) : Option Cell :=
  if index < mem.sizeOf pointer then some (mem.cell pointer index) else none

/-- `count` cells from the start of a block. -/
def load (mem : Memory) (pointer : Pointer) (count : Nat) : List Cell :=
  (List.range count).map (mem.cell pointer)

def record (mem : Memory) (call : Call) : Memory := { mem with calls := call :: mem.calls }

/-- Make a block live with the given contents. -/
def put (mem : Memory) (id : BlockId) (block : Block) : Memory :=
  { mem with live := insert id mem.live, block := Function.update mem.block id block }

/-- End the life of a block. -/
def drop (mem : Memory) (id : BlockId) : Memory := { mem with live := mem.live.erase id }

/-- `kmalloc`. -/
def kmalloc (mem : Memory) (grant : Option BlockId) (size : Nat) : Pointer × Memory :=
  if size = 0 then (some .zeroSize, mem)
  else
    match grant with
    | none => (none, mem)
    | some id =>
        if id ∈ mem.live then (none, mem)
        else (some (.block id), mem.put id ⟨size, fun _ => none⟩)

/-- `kfree`. -/
def kfree (mem : Memory) (pointer : Pointer) : Memory :=
  let mem := mem.record (.kfree pointer mem.live)
  match pointer with
  | some (.block id) => mem.drop id
  | _ => mem

/-- `krealloc`. A proposal of the block itself resizes it in place; another one
moves the contents and frees the old block. Size 0 frees the block and yields
the zero-size pointer; a failed call leaves the block live. -/
def krealloc (mem : Memory) (grant : Option BlockId) (pointer : Pointer) (size : Nat) :
    Pointer × Memory :=
  let mem := mem.record (.krealloc pointer mem.live)
  match pointer with
  | some (.block id) =>
      if size = 0 then (some .zeroSize, mem.drop id)
      else
        match grant with
        | none => (none, mem)
        | some new =>
            if new = id then (some (.block id), mem.put id ⟨size, mem.cell pointer⟩)
            else if new ∈ mem.live then (none, mem)
            else (some (.block new), (mem.put new ⟨size, mem.cell pointer⟩).drop id)
  | _ => mem.kmalloc grant size

/-- Store bytes at an offset of a block. What falls outside of the block is lost
to this memory: it overwrites something else. -/
def store (mem : Memory) (pointer : Pointer) (offset : Int) (bytes : List UInt8) : Memory :=
  match pointer with
  | some (.block id) =>
      let block := mem.block id
      let cell := fun index : Nat =>
        if offset ≤ index ∧ index < offset + bytes.length then
          bytes[(index - offset).toNat]?
        else block.cell index
      { mem with block := Function.update mem.block id ⟨block.size, cell⟩ }
  | _ => mem

/-- `copy_from_user`: the number of bytes that could not be copied. Their places
are filled with zeros. -/
def copyFromUser (mem : Memory) (uncopied : Nat) (pointer : Pointer) (offset : Int)
    (bytes : List UInt8) : Nat × Memory :=
  let left := min uncopied bytes.length
  let mem := mem.record (.copyFromUser offset bytes.length (mem.sizeOf pointer))
  (left, mem.store pointer offset
    (bytes.take (bytes.length - left) ++ List.replicate left 0))

/-- `copy_to_user`: the number of bytes that could not be copied, and the cells of
the range. -/
def copyToUser (mem : Memory) (uncopied : Nat) (pointer : Pointer) (offset count : Nat) :
    Nat × List Cell × Memory :=
  (min uncopied count,
    (List.range count).map fun index => mem.cell pointer (offset + index),
    mem.record (.copyToUser offset count (mem.sizeOf pointer)))

/-! ## Cells -/

section Cells

variable (mem : Memory)

@[simp] theorem cell_none (index : Nat) : mem.cell none index = none := rfl

@[simp] theorem cell_zeroSize (index : Nat) : mem.cell (some .zeroSize) index = none := rfl

@[simp] theorem cell_record (call : Call) (pointer : Pointer) (index : Nat) :
    (mem.record call).cell pointer index = mem.cell pointer index := rfl

@[simp] theorem sizeOf_record (call : Call) (pointer : Pointer) :
    (mem.record call).sizeOf pointer = mem.sizeOf pointer := rfl

@[simp] theorem live_record (call : Call) : (mem.record call).live = mem.live := rfl

@[simp] theorem calls_record (call : Call) : (mem.record call).calls = call :: mem.calls := rfl

@[simp] theorem live_put (id : BlockId) (block : Block) :
    (mem.put id block).live = insert id mem.live := rfl

@[simp] theorem calls_put (id : BlockId) (block : Block) :
    (mem.put id block).calls = mem.calls := rfl

@[simp] theorem live_drop (id : BlockId) : (mem.drop id).live = mem.live.erase id := rfl

@[simp] theorem calls_drop (id : BlockId) : (mem.drop id).calls = mem.calls := rfl

theorem cell_put_self (id : BlockId) (block : Block) (index : Nat) :
    (mem.put id block).cell (some (.block id)) index =
      if index < block.size then block.cell index else none := by
  simp [cell, put]

theorem sizeOf_put_self (id : BlockId) (block : Block) :
    (mem.put id block).sizeOf (some (.block id)) = block.size := by
  simp [sizeOf, put]

theorem cell_put_of_ne {id : BlockId} (block : Block) {pointer : Pointer}
    (other : pointer ≠ some (.block id)) (index : Nat) :
    (mem.put id block).cell pointer index = mem.cell pointer index := by
  rcases pointer with - | - | own
  · rfl
  · rfl
  · have different : own ≠ id := fun same => other (same ▸ rfl)
    simp [cell, put, different]

theorem sizeOf_put_of_ne {id : BlockId} (block : Block) {pointer : Pointer}
    (other : pointer ≠ some (.block id)) :
    (mem.put id block).sizeOf pointer = mem.sizeOf pointer := by
  rcases pointer with - | - | own
  · rfl
  · rfl
  · have different : own ≠ id := fun same => other (same ▸ rfl)
    simp [sizeOf, put, different]

theorem cell_drop_of_ne {id : BlockId} {pointer : Pointer}
    (other : pointer ≠ some (.block id)) (index : Nat) :
    (mem.drop id).cell pointer index = mem.cell pointer index := by
  rcases pointer with - | - | own
  · rfl
  · rfl
  · have different : own ≠ id := fun same => other (same ▸ rfl)
    simp [cell, drop, different]

theorem sizeOf_drop_of_ne {id : BlockId} {pointer : Pointer}
    (other : pointer ≠ some (.block id)) :
    (mem.drop id).sizeOf pointer = mem.sizeOf pointer := by
  rcases pointer with - | - | own
  · rfl
  · rfl
  · have different : own ≠ id := fun same => other (same ▸ rfl)
    simp [sizeOf, drop, different]

@[simp] theorem live_store (pointer : Pointer) (offset : Int) (bytes : List UInt8) :
    (mem.store pointer offset bytes).live = mem.live := by
  rcases pointer with - | - | id <;> rfl

@[simp] theorem calls_store (pointer : Pointer) (offset : Int) (bytes : List UInt8) :
    (mem.store pointer offset bytes).calls = mem.calls := by
  rcases pointer with - | - | id <;> rfl

@[simp] theorem sizeOf_store (pointer other : Pointer) (offset : Int) (bytes : List UInt8) :
    (mem.store pointer offset bytes).sizeOf other = mem.sizeOf other := by
  rcases pointer with - | - | id
  · rfl
  · rfl
  · rcases other with - | - | own
    · rfl
    · rfl
    · by_cases same : own = id
      · subst same
        simp [sizeOf, store]
      · simp [sizeOf, store, same]

theorem cell_store_of_ne {pointer other : Pointer} (different : other ≠ pointer)
    (offset : Int) (bytes : List UInt8) (index : Nat) :
    (mem.store pointer offset bytes).cell other index = mem.cell other index := by
  rcases pointer with - | - | id
  · rfl
  · rfl
  · rcases other with - | - | own
    · rfl
    · rfl
    · have apart : own ≠ id := fun same => different (same ▸ rfl)
      simp [cell, store, apart]

/-- A store changes the cells of its range that lie in the block. -/
theorem cell_store_self (pointer : Pointer) (offset : Int) (bytes : List UInt8) (index : Nat) :
    (mem.store pointer offset bytes).cell pointer index =
      if index < mem.sizeOf pointer ∧ offset ≤ index ∧ index < offset + bytes.length then
        bytes[(index - offset).toNat]?
      else mem.cell pointer index := by
  rcases pointer with - | - | id
  · simp [store, sizeOf]
  · simp [store, sizeOf]
  · by_cases isLive : id ∈ mem.live
    · by_cases inside : index < (mem.block id).size
      · simp [cell, store, sizeOf, isLive, inside]
      · simp [cell, store, sizeOf, isLive, inside]
    · simp [cell, store, sizeOf, isLive]

theorem cell_of_sizeOf_le {pointer : Pointer} {index : Nat} (outside : mem.sizeOf pointer ≤ index) :
    mem.cell pointer index = none := by
  rcases pointer with - | - | id
  · rfl
  · rfl
  · by_cases isLive : id ∈ mem.live
    · simp only [sizeOf, isLive, if_true] at outside
      rw [cell, if_neg fun inside => by omega]
    · rw [cell, if_neg fun inside => isLive inside.1]

theorem cell_eq_join_place (pointer : Pointer) (index : Nat) :
    mem.cell pointer index = (mem.place pointer index).join := by
  unfold place
  split
  next => rfl
  next outside => exact mem.cell_of_sizeOf_le (not_lt.mp outside)

@[simp] theorem place_none (index : Nat) : mem.place none index = none := rfl

@[simp] theorem length_load (pointer : Pointer) (count : Nat) :
    (mem.load pointer count).length = count := by
  simp [load]

theorem getElem?_load (pointer : Pointer) {count index : Nat} (inside : index < count) :
    (mem.load pointer count)[index]? = some (mem.cell pointer index) := by
  simp [load, inside]

/-- Loads agree when the cells do. -/
theorem load_congr {mem other : Memory} {pointer otherPointer : Pointer} {count : Nat}
    (same : ∀ index < count, mem.cell pointer index = other.cell otherPointer index) :
    mem.load pointer count = other.load otherPointer count :=
  List.map_congr_left fun index member => same index (List.mem_range.mp member)

end Cells

/-! ## Freeing and copying -/

section Freeing

variable (mem : Memory) (pointer : Pointer)

/-- Exactly the block pointed to dies. -/
@[simp] theorem mem_live_kfree (id : BlockId) :
    id ∈ (mem.kfree pointer).live ↔ id ∈ mem.live ∧ pointer ≠ some (.block id) := by
  rcases pointer with - | - | own
  · simp [kfree]
  · simp [kfree]
  · simp [kfree, and_comm, eq_comm]

@[simp] theorem calls_kfree :
    (mem.kfree pointer).calls = .kfree pointer mem.live :: mem.calls := by
  rcases pointer with - | - | own <;> rfl

theorem cell_kfree_of_ne {other : Pointer} (different : other ≠ pointer) (index : Nat) :
    (mem.kfree pointer).cell other index = mem.cell other index := by
  rcases pointer with - | - | own
  · rfl
  · rfl
  · rw [kfree, cell_drop_of_ne _ different, cell_record]

theorem sizeOf_kfree_of_ne {other : Pointer} (different : other ≠ pointer) :
    (mem.kfree pointer).sizeOf other = mem.sizeOf other := by
  rcases pointer with - | - | own
  · rfl
  · rfl
  · rw [kfree, sizeOf_drop_of_ne _ different, sizeOf_record]

end Freeing

@[simp] theorem live_copyFromUser (mem : Memory) (uncopied : Nat) (pointer : Pointer)
    (offset : Int) (bytes : List UInt8) :
    (mem.copyFromUser uncopied pointer offset bytes).2.live = mem.live := by
  simp [copyFromUser]

@[simp] theorem calls_copyFromUser (mem : Memory) (uncopied : Nat) (pointer : Pointer)
    (offset : Int) (bytes : List UInt8) :
    (mem.copyFromUser uncopied pointer offset bytes).2.calls =
      .copyFromUser offset bytes.length (mem.sizeOf pointer) :: mem.calls := by
  simp [copyFromUser]

@[simp] theorem sizeOf_copyFromUser (mem : Memory) (uncopied : Nat) (pointer other : Pointer)
    (offset : Int) (bytes : List UInt8) :
    (mem.copyFromUser uncopied pointer offset bytes).2.sizeOf other = mem.sizeOf other := by
  simp [copyFromUser]

theorem cell_copyFromUser_of_ne (mem : Memory) (uncopied : Nat) {pointer other : Pointer}
    (different : other ≠ pointer) (offset : Int) (bytes : List UInt8) (index : Nat) :
    (mem.copyFromUser uncopied pointer offset bytes).2.cell other index =
      mem.cell other index := by
  simp [copyFromUser, cell_store_of_ne _ different]

/-- The cells of a block after a copy that may have stopped early: outside of the
range nothing changes. -/
theorem cell_copyFromUser_outside (mem : Memory) (uncopied : Nat) (pointer : Pointer)
    (offset : Int) (bytes : List UInt8) {index : Nat} (before : (index : Int) < offset) :
    (mem.copyFromUser uncopied pointer offset bytes).2.cell pointer index =
      mem.cell pointer index := by
  rw [copyFromUser, cell_store_self, if_neg (by omega), cell_record]

/-- The cells of a block after a complete copy. -/
theorem cell_copyFromUser_self (mem : Memory) {uncopied : Nat} (pointer : Pointer)
    (offset : Int) {bytes : List UInt8} (whole : min uncopied bytes.length = 0) (index : Nat) :
    (mem.copyFromUser uncopied pointer offset bytes).2.cell pointer index =
      if index < mem.sizeOf pointer ∧ offset ≤ index ∧ index < offset + bytes.length then
        bytes[(index - offset).toNat]?
      else mem.cell pointer index := by
  rw [copyFromUser, cell_store_self, whole]
  simp

/-! ## What an allocation does -/

/-- The three ways `kmalloc` ends. -/
theorem kmalloc_cases (mem : Memory) (grant : Option BlockId) (size : Nat) :
    (size = 0 ∧ mem.kmalloc grant size = (some .zeroSize, mem)) ∨
    (size ≠ 0 ∧ (∀ id, grant = some id → id ∈ mem.live) ∧
      mem.kmalloc grant size = (none, mem)) ∨
    ∃ id, size ≠ 0 ∧ grant = some id ∧ id ∉ mem.live ∧
      mem.kmalloc grant size = (some (.block id), mem.put id ⟨size, fun _ => none⟩) := by
  unfold kmalloc
  by_cases nothing : size = 0
  · exact .inl ⟨nothing, by simp [nothing]⟩
  · cases grant with
    | none => exact .inr (.inl ⟨nothing, by simp, by simp [nothing]⟩)
    | some id =>
        by_cases taken : id ∈ mem.live
        · exact .inr (.inl ⟨nothing, by simpa using taken, by simp [nothing, taken]⟩)
        · exact .inr (.inr ⟨id, nothing, rfl, taken, by simp [nothing, taken]⟩)

/-- The ways `krealloc` of a block ends. -/
theorem krealloc_block_cases (mem : Memory) (grant : Option BlockId) (id : BlockId)
    (size : Nat) :
    let before := mem.record (.krealloc (some (.block id)) mem.live)
    let contents : Block := ⟨size, before.cell (some (.block id))⟩
    let result := mem.krealloc grant (some (.block id)) size
    (size = 0 ∧ result = (some .zeroSize, before.drop id)) ∨
    (size ≠ 0 ∧ (∀ new, grant = some new → new ∈ mem.live ∧ new ≠ id) ∧
      result = (none, before)) ∨
    (size ≠ 0 ∧ grant = some id ∧ result = (some (.block id), before.put id contents)) ∨
    ∃ new, size ≠ 0 ∧ grant = some new ∧ new ≠ id ∧ new ∉ mem.live ∧
      result = (some (.block new), (before.put new contents).drop id) := by
  intro before contents result
  by_cases nothing : size = 0
  · exact .inl ⟨nothing, by simp [result, krealloc, nothing, before]⟩
  · cases grant with
    | none => exact .inr (.inl ⟨nothing, by simp, by simp [result, krealloc, nothing, before]⟩)
    | some new =>
        by_cases same : new = id
        · subst same
          exact .inr (.inr (.inl ⟨nothing, rfl, by
            simp [result, krealloc, nothing, before, contents]⟩))
        · by_cases taken : new ∈ mem.live
          · exact .inr (.inl ⟨nothing, by simpa using ⟨taken, same⟩, by
              simp [result, krealloc, nothing, same, taken, before]⟩)
          · exact .inr (.inr (.inr ⟨new, nothing, rfl, same, taken, by
              simp [result, krealloc, nothing, same, taken, before, contents]⟩))

end Memory

end KernelMemory
