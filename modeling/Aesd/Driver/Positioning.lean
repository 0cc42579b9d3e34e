import Aesd.Driver.Reading
import Aesd.Driver.Seek

/-!
# Failed reads and seeks

A call that moves the position of a file and fails ought to have moved nothing,
so that it can be tried again. `aesd_unlocked_ioctl` stores the position last.
`aesd_read` stores it before it copies the bytes, so a read whose copy fails has
skipped them.
-/

namespace Aesd

open KernelMemory MachineInt

/-- The device and its blocks are as they were. The record of calls is not part of
them. -/
structure SameDevice (before after : DriverState) : Prop where
  dev : after.dev = before.dev
  live : after.mem.live = before.mem.live
  block : after.mem.block = before.mem.block

/-- A read with a negative result has moved nothing, and another read gets what it would
have got in its place. -/
def ReadKeeps (state : DriverState) (call : ReadCall) (fPos : Int) : Prop :=
  (aesdRead state call fPos).retval < 0 →
    (aesdRead state call fPos).fPos = fPos ∧
      SameDevice state (aesdRead state call fPos).state ∧
      ∀ retry,
        (aesdRead (aesdRead state call fPos).state retry (aesdRead state call fPos).fPos).retval =
            (aesdRead state retry fPos).retval ∧
          (aesdRead (aesdRead state call fPos).state retry (aesdRead state call fPos).fPos).data =
            (aesdRead state retry fPos).data

/-- A seek with a negative result has moved nothing. The device is not among its
results. -/
def IoctlKeeps (dev : AesdDev) (call : IoctlCall) (fPos : Int) : Prop :=
  (aesdUnlockedIoctl dev call fPos).1 < 0 → (aesdUnlockedIoctl dev call fPos).2 = fPos

/-- The read gets as far as the copy from an entry, and then fails: some bytes cannot be
copied, or there are too many for the result. -/
def FailsAtCopy (state : DriverState) (call : ReadCall) (fPos : Int) : Prop :=
  call.Enters ∧ ∃ index offset,
    state.dev.circBuffer.aesdCircularBufferFindEntryOffsetForFpos (toSizeT fPos) =
        (some index, offset) ∧
      (state.dev.circBuffer.slot index).buffptr ≠ none ∧
      (min call.uncopied
            (DriverState.servedCount (state.dev.circBuffer.slot index) offset call.count).toNat ≠ 0 ∨
        2 ^ 63 ≤ (DriverState.servedCount (state.dev.circBuffer.slot index) offset call.count).toNat)

/-- Only adding nothing leaves a position where it is. -/
theorem eq_zero_of_advancePos {fPos : Int} {amount : UInt64}
    (same : advancePos fPos amount = fPos) : amount.toNat = 0 := by
  have moved := toSigned64_emod (toSizeT fPos + amount)
  have start := toNat_toSizeT fPos
  have bound := amount.toNat_lt
  rw [UInt64.toNat_add] at moved
  rw [advancePos] at same
  rw [same] at moved
  omega

/-- A read that does not get to the critical section. -/
theorem aesdRead_of_not_enters (state : DriverState) {call : ReadCall} (outside : ¬call.Enters)
    (fPos : Int) : ∃ retval < 0, aesdRead state call fPos = ⟨retval, [], fPos, state⟩ := by
  unfold aesdRead
  split_ifs with privateData buf lock
  · exact ⟨_, by decide, rfl⟩
  · exact ⟨_, by decide, rfl⟩
  · exact ⟨_, by decide, rfl⟩
  · exact absurd ⟨by simpa using buf, by simpa using privateData, by simpa using lock⟩ outside

/-- A read that fails at its copy returns an error and has moved the position. -/
theorem FailsAtCopy.moves {state : DriverState} {call : ReadCall} {fPos : Int}
    (failsAtCopy : FailsAtCopy state call fPos) :
    (aesdRead state call fPos).retval < 0 ∧ (aesdRead state call fPos).fPos ≠ fPos := by
  obtain ⟨enters, index, offset, found, block, fails⟩ := failsAtCopy
  have result := DriverState.aesdRead_of_found enters found
  dsimp only at result
  rw [if_neg block] at result
  constructor
  · rw [result]
    split <;> dsimp only
    next => decide
    next copied => exact (toSigned64_neg_iff _).mpr (fails.resolve_left copied)
  · have position : (aesdRead state call fPos).fPos = advancePos fPos
        (DriverState.servedCount (state.dev.circBuffer.slot index) offset call.count) := by
      rw [result]
      split <;> dsimp only
    intro same
    rw [eq_zero_of_advancePos (position.symm.trans same)] at fails
    simp at fails

/-- Behind the lock a read returns an error only if it fails at its copy. -/
theorem failsAtCopy_of_negative {state : DriverState} {call : ReadCall} {fPos : Int}
    (enters : call.Enters) (negative : (aesdRead state call fPos).retval < 0) :
    FailsAtCopy state call fPos := by
  rcases lookup : state.dev.circBuffer.aesdCircularBufferFindEntryOffsetForFpos
    (toSizeT fPos) with ⟨_ | index, offset⟩
  · rw [DriverState.aesdRead_of_not_found enters lookup] at negative
    exact absurd negative (Int.lt_irrefl 0)
  · rw [DriverState.aesdRead_of_found enters lookup] at negative
    dsimp only at negative
    split at negative
    next => exact absurd negative (Int.lt_irrefl 0)
    next block =>
      refine ⟨enters, index, offset, lookup, block, ?_⟩
      split at negative <;> dsimp only at negative
      next failed => exact .inl failed
      next => exact .inr ((toSigned64_neg_iff _).mp negative)

theorem readKeeps_iff (state : DriverState) (call : ReadCall) (fPos : Int) :
    ReadKeeps state call fPos ↔ ¬FailsAtCopy state call fPos := by
  constructor
  · intro keeps fails
    exact fails.moves.2 (keeps fails.moves.1).1
  · intro completes negative
    by_cases enters : call.Enters
    · exact absurd (failsAtCopy_of_negative enters negative) completes
    · obtain ⟨retval, -, result⟩ := aesdRead_of_not_enters state enters fPos
      rw [result]
      exact ⟨rfl, ⟨rfl, rfl, rfl⟩, fun retry => ⟨rfl, rfl⟩⟩

/-- A failed seek moves nothing. -/
theorem ioctlKeeps (dev : AesdDev) (call : IoctlCall) (fPos : Int) : IoctlKeeps dev call fPos := by
  intro negative
  rcases aesdUnlockedIoctl_cases dev call fPos with ⟨retval, -, result⟩ | ⟨-, position, result⟩
  · rw [result]
  · rw [result] at negative
    exact absurd negative (Int.lt_irrefl 0)

/-- Failed calls move nothing. On every device, for every position and every outcome of
locks and user copies, a failed seek keeps the position and the device, and a failed read
does so if and only if it fails before its copy. -/
theorem positioningKeeps_iff (state : DriverState) (read : ReadCall) (ioctl : IoctlCall)
    (fPos : Int) :
    ReadKeeps state read fPos ∧ IoctlKeeps state.dev ioctl fPos ↔
      ¬FailsAtCopy state read fPos := by
  rw [readKeeps_iff]
  exact and_iff_left (ioctlKeeps state.dev ioctl fPos)

/-- One command of two bytes. A read of it whose copy fails returns an error and has moved
the position behind it. -/
theorem not_readKeeps_failed_copy :
    ¬ReadKeeps (writeStep .signed aesdInitModule (.granted [97, newline] 0))
      ⟨true, true, true, 1, 2⟩ 0 := by
  intro keeps
  have moved := (keeps (by decide)).1
  revert moved
  decide

end Aesd
