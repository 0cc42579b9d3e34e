import Aesd.Driver.Reading
import Mathlib.Algebra.Order.BigOperators.Group.List
import Mathlib.Algebra.Order.Ring.Nat

/-!
# Recorded lengths and copy ranges

`Tally` counts in natural numbers what the driver counts in a `char`: the length
of the pending command and of each retained one. As long as no command grows out
of the range of `char`, the recorded lengths are the counted ones, and then every
copy from and to the user stays inside of its block.
-/

namespace Aesd

open KernelMemory MachineInt

/-- The number of bytes of a call that the driver keeps: those up to the first
newline, or all of them. -/
def keptLength (bytes : List UInt8) : Nat :=
  match bytes.findIdx? (· = newline) with
  | none => bytes.length
  | some i => i + 1

theorem keptLength_of_notMem {bytes : List UInt8} (missing : newline ∉ bytes) :
    keptLength bytes = bytes.length := by
  rw [keptLength, Lines.findIdx?_of_notMem missing]

theorem keptLength_line {line : List UInt8} (missing : newline ∉ line) (rest : List UInt8) :
    keptLength (line ++ newline :: rest) = line.length + 1 := by
  rw [keptLength, Lines.findIdx?_line missing]

/-- True lengths: of the retained commands, oldest first, and of what has
accumulated since the last completed one. -/
structure Tally where
  commands : List Nat
  pending : Nat
  deriving DecidableEq

/-- A successful write of some bytes. -/
def Tally.write (tally : Tally) (bytes : List UInt8) : Tally :=
  if newline ∈ bytes then
    ⟨Window.push maxWriteOperations tally.commands (tally.pending + keptLength bytes), 0⟩
  else
    ⟨tally.commands, tally.pending + keptLength bytes⟩

/-- A device with the true lengths of what was written to it. -/
structure Tallied where
  state : DriverState
  tally : Tally

namespace Tallied

def init : Tallied := ⟨aesdInitModule, ⟨[], 0⟩⟩

/-- One call of `aesd_write`. A failed call accumulates nothing. -/
def step (sign : CharSign) (tallied : Tallied) (call : WriteCall) : Tallied where
  state := writeStep sign tallied.state call
  tally :=
    if (aesdWrite sign tallied.state call).1 < 0 then tallied.tally
    else tallied.tally.write call.bytes

/-- The recorded lengths are true, and all copies from the user so far and every
copy to the user that a read could make now stay inside of their blocks. -/
structure LengthsTrue (sign : CharSign) (tallied : Tallied) : Prop where
  pending : sign.promote tallied.state.dev.cbSize = tallied.tally.pending
  commands : tallied.state.dev.circBuffer.sizes = tallied.tally.commands
  writes : ∀ call ∈ tallied.state.mem.calls, call.InBounds
  reads : ∀ read fPos, ∀ call ∈ (aesdRead tallied.state read fPos).state.mem.calls,
    call.InBounds

/-- The condition on a call: its count has passed `vfs_write`, and if nothing in it
fails, the command it adds to stays in the range of `char`. -/
def StaysInRange (sign : CharSign) (tallied : Tallied) (call : WriteCall) : Prop :=
  call.bytes.length ≤ maxRwCount ∧
    (tallied.state.Succeeds sign call →
      tallied.tally.pending + keptLength call.bytes ≤ sign.max)

instance (sign : CharSign) (tallied : Tallied) (call : WriteCall) :
    Decidable (tallied.StaysInRange sign call) :=
  inferInstanceAs (Decidable (_ ∧ (_ → _)))

end Tallied

namespace DriverState

/-- Every entry that has a block fits into it. -/
def EntriesFit (state : DriverState) : Prop :=
  ∀ index, (state.dev.circBuffer.slot index).buffptr ≠ none →
    (state.dev.circBuffer.slot index).size.toNat ≤
      state.mem.sizeOf (state.dev.circBuffer.slot index).buffptr

/-- Every user copy so far stayed inside of its block. -/
def CopiesInBounds (state : DriverState) : Prop := ∀ call ∈ state.mem.calls, call.InBounds

section Exits

variable {sign : CharSign} {state : DriverState}

/-- The allocation of a write changes the size of no block of a slot. -/
theorem WellFormed.sizeOf_slot (wf : state.WellFormed) {grant : Option BlockId} {size : Nat}
    {pointer : Pointer} {mem : Memory} (reserved : Reserved state grant size pointer mem)
    (slotIndex : Nat) :
    mem.sizeOf (state.dev.circBuffer.slot slotIndex).buffptr =
      state.mem.sizeOf (state.dev.circBuffer.slot slotIndex).buffptr := by
  rcases held : (state.dev.circBuffer.slot slotIndex).buffptr with - | - | id
  · rfl
  · rfl
  · exact (reserved.frame _ (wf.slot_kept reserved held).2.symm
      fun bytes same => wf.pendingApart bytes slotIndex id held same.symm).1

theorem EntriesFit.starved (fit : state.EntriesFit) (wf : state.WellFormed) (call : WriteCall)
    (buf : List UInt8) : (state.starved sign call buf).EntriesFit := by
  intro index nonnull
  exact (fit index nonnull).trans_eq
    (wf.sizeOf_slot (state.reserved sign call.grant buf.length) index).symm

theorem EntriesFit.staged (fit : state.EntriesFit) (wf : state.WellFormed) (call : WriteCall)
    (buf : List UInt8) : (state.staged sign call buf).EntriesFit := by
  intro index nonnull
  have same := wf.sizeOf_slot (state.reserved sign call.grant buf.length) index
  simpa [DriverState.staged, same] using fit index nonnull

/-- The block of a call has the requested size. -/
theorem sizeOf_staged {call : WriteCall} {buf : List UInt8}
    (granted : ¬state.Starves sign call buf) :
    (state.staged sign call buf).mem.sizeOf (state.staged sign call buf).dev.cbBuffer =
      state.request sign buf.length := by
  have reserved := state.reserved sign call.grant buf.length
  exact (Memory.sizeOf_copyFromUser ..).trans (reserved.sizeOf (staged_nonnull granted))

/-- The command of a call fits into the block of the call. -/
theorem EntriesFit.complete (fit : state.EntriesFit) (holding : state.Holding)
    (nonnull : state.dev.cbBuffer ≠ none) {actualSize : Nat}
    (within : (state.recordedSize sign actualSize).toNat ≤
      state.mem.sizeOf state.dev.cbBuffer) :
    (state.complete sign actualSize).EntriesFit := by
  cases full : state.dev.circBuffer.full with
  | false =>
      rw [state.complete_of_open sign actualSize full]
      intro index
      rcases holding.slots_addEntry
        ⟨state.dev.cbBuffer, state.recordedSize sign actualSize⟩ index with
        ⟨-, slot⟩ | ⟨-, slot⟩ <;> simp only [slot]
      · exact fun _ => within
      · exact fit index
  | true =>
      rw [state.complete_of_full sign actualSize holding.ring full nonnull]
      intro index
      rcases holding.slots_addEntry ⟨none, state.recordedSize sign actualSize⟩ index with
        ⟨-, slot⟩ | ⟨-, slot⟩ <;> simp only [slot]
      · exact fun impossible => absurd rfl impossible
      · intro other
        rcases held : (state.dev.circBuffer.slot index).buffptr with - | - | id
        · exact absurd held other
        · simpa [held, Memory.sizeOf] using fit index other
        · rw [Memory.sizeOf_kfree_of_ne _ _ (holding.pendingApart index id held).symm]
          simpa [held] using fit index other

theorem CopiesInBounds.reserve (sofar : state.CopiesInBounds) (grant : Option BlockId)
    (count : Nat) : ∀ call ∈ (state.reserve sign grant count).2.calls, call.InBounds := by
  rw [(state.reserved sign grant count).calls]
  intro call member
  rcases List.mem_append.mp member with recent | earlier
  · split at recent
    next => simp at recent
    next =>
      obtain rfl := List.mem_singleton.mp recent
      trivial
  · exact sofar call earlier

/-- The copy of a call goes to the end of its block, behind the pending bytes. -/
theorem CopiesInBounds.staged (sofar : state.CopiesInBounds) {call : WriteCall}
    {buf : List UInt8} (granted : ¬state.Starves sign call buf)
    (nonneg : 0 ≤ sign.promote state.dev.cbSize) (bounded : buf.length ≤ maxRwCount) :
    (state.staged sign call buf).CopiesInBounds := by
  have reserved := state.reserved sign call.grant buf.length
  have upper := sign.promote_le_max state.dev.cbSize
  have maxBound := sign.max_le
  have requested := request_of_lt sign state buf.length
    (by omega) (by unfold maxRwCount at bounded; omega)
  intro recorded member
  simp only [DriverState.staged, Memory.calls_copyFromUser, List.mem_cons] at member
  rcases member with rfl | earlier
  · rw [reserved.sizeOf (staged_nonnull granted)]
    exact ⟨nonneg, by omega⟩
  · exact sofar.reserve call.grant buf.length recorded earlier

theorem CopiesInBounds.complete (sofar : state.CopiesInBounds) (holding : state.Holding)
    (nonnull : state.dev.cbBuffer ≠ none) (actualSize : Nat) :
    (state.complete sign actualSize).CopiesInBounds := by
  cases full : state.dev.circBuffer.full with
  | false => rw [state.complete_of_open sign actualSize full]; exact sofar
  | true =>
      rw [state.complete_of_full sign actualSize holding.ring full nonnull]
      intro call member
      rcases List.mem_cons.mp (Memory.calls_kfree .. ▸ member) with rfl | earlier
      · trivial
      · exact sofar call earlier

end Exits

/-- A read copies out of the block of an entry, and inside of it. -/
theorem CopiesInBounds.aesdRead {state : DriverState} (sofar : state.CopiesInBounds)
    (ring : state.dev.circBuffer.WellFormed) (noWrap : state.dev.circBuffer.sizes.sum < 2 ^ 64)
    (fit : state.EntriesFit) (read : ReadCall) (fPos : Int) :
    (aesdRead state read fPos).state.CopiesInBounds := by
  by_cases enters : read.Enters
  · by_cases atEnd : state.dev.circBuffer.sizes.sum ≤ (toSizeT fPos).toNat
    · rw [aesdRead_of_end ring noWrap enters atEnd]
      exact sofar
    · obtain ⟨⟨index, offset⟩, located⟩ := Option.ne_none_iff_exists'.mp
        (mt (Locate.locate_eq_none_iff _ _).mp atEnd)
      obtain ⟨entry, served, retained, inside, servedValue, result⟩ :=
        aesdRead_of_located ring noWrap enters located
      rw [result]
      split
      next => exact sofar
      next nonnull =>
        have slot := AesdCircularBuffer.slot_of_retained retained
        have room := fit _ (slot.symm ▸ nonnull)
        rw [slot] at room
        have grown : ∀ call ∈ (state.mem.copyToUser read.uncopied entry.buffptr offset
            served.toNat).2.2.calls, call.InBounds := by
          intro call member
          rcases List.mem_cons.mp member with rfl | earlier
          · exact ⟨Int.natCast_nonneg _, by omega⟩
          · exact sofar call earlier
        dsimp only
        split <;> exact grown
  · have refused : (Aesd.aesdRead state read fPos).state = state := by
      unfold Aesd.aesdRead
      split_ifs with first second third <;> first
        | rfl
        | exact absurd ⟨by simpa using second, by simpa using first, by simpa using third⟩ enters
    rw [refused]
    exact sofar

end DriverState

/-! ## Runs -/

namespace Tallied

/-- What a run in range keeps, from which `LengthsTrue` follows. -/
structure Invariant (sign : CharSign) (tallied : Tallied) : Prop where
  wellFormed : tallied.state.WellFormed
  pending : sign.promote tallied.state.dev.cbSize = tallied.tally.pending
  commands : tallied.state.dev.circBuffer.sizes = tallied.tally.commands
  small : ∀ size ∈ tallied.tally.commands, size ≤ sign.max
  fit : tallied.state.EntriesFit
  copies : tallied.state.CopiesInBounds

namespace Invariant

variable {sign : CharSign} {tallied : Tallied} {call : WriteCall}

theorem init (sign : CharSign) : Tallied.init.Invariant sign where
  wellFormed := DriverState.wellFormed_init
  pending := by simp [Tallied.init, aesdInitModule]
  commands := by simp [Tallied.init, aesdInitModule, AesdCircularBuffer.sizes]
  small := by simp [Tallied.init]
  fit index nonnull := by
    simp [Tallied.init, aesdInitModule, AesdBufferEntry.zero] at nonnull
  copies := by simp [DriverState.CopiesInBounds, Tallied.init, aesdInitModule, Memory.empty]

/-- Ten lengths in the range of `char` are far from wrapping. -/
theorem noWrap (invariant : tallied.Invariant sign) :
    tallied.state.dev.circBuffer.sizes.sum < 2 ^ 64 := by
  have few := invariant.wellFormed.ring.count_le
  rw [← AesdCircularBuffer.length_retained] at few
  have count : tallied.state.dev.circBuffer.sizes.length ≤ maxWriteOperations := by
    simpa [AesdCircularBuffer.sizes] using few
  have total := List.sum_le_card_nsmul tallied.state.dev.circBuffer.sizes sign.max
    (invariant.commands ▸ invariant.small)
  rw [Nat.nsmul_eq_mul] at total
  have product := Nat.mul_le_mul count sign.max_le
  unfold maxWriteOperations at product
  omega

theorem lengthsTrue (invariant : tallied.Invariant sign) : tallied.LengthsTrue sign where
  pending := invariant.pending
  commands := invariant.commands
  writes := invariant.copies
  reads read fPos := invariant.copies.aesdRead invariant.wellFormed.ring invariant.noWrap
    invariant.fit read fPos

/-- A successful call without a newline. -/
theorem unfinished (invariant : tallied.Invariant sign)
    (succeeds : tallied.state.Succeeds sign call) (missing : newline ∉ call.bytes)
    (inRange : tallied.tally.pending + keptLength call.bytes ≤ sign.max)
    (bounded : call.bytes.length ≤ maxRwCount) :
    Invariant sign
      ⟨writeStep sign tallied.state call, tallied.tally.write call.bytes⟩ := by
  have wf := invariant.wellFormed
  have pending := invariant.pending
  rw [keptLength_of_notMem missing] at inRange
  have written : tallied.tally.write call.bytes =
      ⟨tallied.tally.commands, tallied.tally.pending + call.bytes.length⟩ := by
    rw [Tally.write, if_neg missing, keptLength_of_notMem missing]
  have dev := succeeds.dev_unfinished missing
  have mem : (writeStep sign tallied.state call).mem =
      (tallied.state.staged sign call call.bytes).mem := by
    rw [succeeds.writeStep_eq, DriverState.accept_of_notMem _ _ missing]
  rw [written]
  exact {
    wellFormed := wellFormed_writeStep sign tallied.state call wf
    pending := by
      rw [dev]
      dsimp only
      rw [sign.promote_add_of_le _ _ (by omega) (by omega), pending, Int.natCast_add]
    commands := by rw [dev]; exact invariant.commands
    small := invariant.small
    fit := by
      unfold DriverState.EntriesFit
      rw [dev, mem]
      exact invariant.fit.staged wf call call.bytes
    copies := by
      unfold DriverState.CopiesInBounds
      rw [mem]
      exact invariant.copies.staged succeeds.granted (by omega) bounded }

/-- A successful call with a newline. -/
theorem line (invariant : tallied.Invariant sign)
    (succeeds : tallied.state.Succeeds sign call) {line rest : List UInt8}
    (isLine : call.bytes = line ++ newline :: rest) (missing : newline ∉ line)
    (inRange : tallied.tally.pending + keptLength call.bytes ≤ sign.max)
    (bounded : call.bytes.length ≤ maxRwCount) :
    Invariant sign
      ⟨writeStep sign tallied.state call, tallied.tally.write call.bytes⟩ := by
  have wf := invariant.wellFormed
  have pending := invariant.pending
  have maxBound := sign.max_le
  have kept : keptLength call.bytes = line.length + 1 := by
    rw [isLine, keptLength_line missing]
  rw [kept] at inRange
  have present : newline ∈ call.bytes := by simp [isLine]
  have written : tallied.tally.write call.bytes =
      ⟨Window.push maxWriteOperations tallied.tally.commands
        (tallied.tally.pending + (line.length + 1)), 0⟩ := by
    rw [Tally.write, if_pos present, kept]
  have recorded : (tallied.state.recordedSize sign (line.length + 1)).toNat =
      tallied.tally.pending + (line.length + 1) := by
    have value := DriverState.toNat_recordedSize_of_le sign tallied.state (line.length + 1)
      (by omega) (by omega)
    omega
  have lengths : call.bytes.length = line.length + 1 + rest.length := by
    rw [isLine, List.length_append, List.length_cons]
    omega
  have requested := DriverState.request_of_lt sign tallied.state call.bytes.length (by omega)
    (by unfold maxRwCount at bounded; omega)
  have holding := wf.staged sign call call.bytes
  have nonnull := DriverState.staged_nonnull succeeds.granted
  rw [written]
  exact {
    wellFormed := wellFormed_writeStep sign tallied.state call wf
    pending := by
      dsimp only
      rw [succeeds.cbSize_line wf isLine missing]
      simp
    commands := by
      dsimp only
      rw [succeeds.sizes_line wf isLine missing, recorded, invariant.commands]
    small := by
      intro size member
      rcases List.mem_append.mp (List.mem_of_mem_drop member) with old | new
      · exact invariant.small size old
      · obtain rfl := List.mem_singleton.mp new
        exact inRange
    fit := by
      dsimp only
      rw [succeeds.writeStep_line isLine missing]
      refine (invariant.fit.staged wf call call.bytes).complete holding nonnull ?_
      rw [DriverState.sizeOf_staged succeeds.granted]
      change (tallied.state.recordedSize sign (line.length + 1)).toNat ≤ _
      omega
    copies := by
      dsimp only
      rw [succeeds.writeStep_line isLine missing]
      exact (invariant.copies.staged succeeds.granted (by omega) bounded).complete holding
        nonnull _ }

/-- A call that stays in range keeps the invariant. -/
theorem step (invariant : tallied.Invariant sign) (inRange : tallied.StaysInRange sign call) :
    (tallied.step sign call).Invariant sign := by
  have wf := invariant.wellFormed
  have pending := invariant.pending
  obtain ⟨bounded, short⟩ := inRange
  by_cases succeeds : tallied.state.Succeeds sign call
  · have stepped : tallied.step sign call =
        ⟨writeStep sign tallied.state call, tallied.tally.write call.bytes⟩ := by
      rw [Tallied.step, if_neg (mt (DriverState.retval_neg_iff ..).mp (not_not.mpr succeeds))]
    rw [stepped]
    by_cases present : newline ∈ call.bytes
    · obtain ⟨line, rest, isLine, missing⟩ := List.eq_append_cons_of_mem present
      exact invariant.line succeeds isLine missing (short succeeds) bounded
    · exact invariant.unfinished succeeds present (short succeeds) bounded
  · have stepped : tallied.step sign call =
        ⟨writeStep sign tallied.state call, tallied.tally⟩ := by
      rw [Tallied.step, if_pos ((DriverState.retval_neg_iff ..).mpr succeeds)]
    rw [stepped]
    unfold writeStep
    rcases aesdWrite_cases sign tallied.state call with ⟨-, -, same⟩ |
      ⟨buf, enters, ⟨-, result⟩ | ⟨granted, -, result⟩ | ⟨granted, copies, -⟩⟩
    · rw [same]
      exact { invariant with }
    · rw [result]
      exact { invariant with
        wellFormed := wf.starved sign call buf
        fit := invariant.fit.starved wf call buf
        copies := invariant.copies.reserve call.grant buf.length }
    · obtain rfl := enters.bytes_eq
      rw [result]
      exact { invariant with
        wellFormed := (wf.staged sign call call.bytes).wellFormed
        fit := invariant.fit.staged wf call call.bytes
        copies := invariant.copies.staged granted (by omega) bounded }
    · obtain rfl := enters.bytes_eq
      exact absurd ⟨enters, granted, copies⟩ succeeds

end Invariant

end Tallied

/-- Recorded lengths are true lengths. In a run in which no command, finished or
not, grows out of the range of `char`, whatever its signedness, the recorded
lengths are the true ones in every state reached, and every copy from or to the
user stays inside of its block. Bytes behind the first newline of a write are
dropped, and not counted. -/
theorem lengths_true (sign : CharSign) (calls : List WriteCall)
    (inRange : Runs.Along (Tallied.step sign) (Tallied.StaysInRange sign) Tallied.init calls) :
    ∀ visited, visited <+: calls →
      (Runs.run (Tallied.step sign) Tallied.init visited).LengthsTrue sign := by
  intro visited isPrefix
  exact (Runs.invariant (Tallied.Invariant sign) (fun _ _ invariant met => invariant.step met)
    (Tallied.Invariant.init sign) (inRange.of_prefix isPrefix)).lengthsTrue

/-- A command of 127 bytes, in two writes, on a target where `char` is signed. -/
theorem lengths_true_longest_signed :
    (Runs.run (Tallied.step .signed) Tallied.init
      [.granted (List.replicate 100 97) 0,
        .granted (List.replicate 26 98 ++ [newline]) 1]).LengthsTrue .signed :=
  lengths_true .signed
    [.granted (List.replicate 100 97) 0, .granted (List.replicate 26 98 ++ [newline]) 1]
    (by decide +kernel) _ List.prefix_rfl

/-- One byte more than `char` counts is enough, whatever its signedness. -/
theorem lengths_wrong_past_max :
    ¬(Runs.run (Tallied.step .signed) Tallied.init
        [.granted (List.replicate 128 97) 0]).LengthsTrue .signed ∧
      ¬(Runs.run (Tallied.step .unsigned) Tallied.init
        [.granted (List.replicate 256 97) 0]).LengthsTrue .unsigned := by
  constructor
  · intro lengths
    have pending := lengths.pending
    revert pending
    decide +kernel
  · intro lengths
    have pending := lengths.pending
    revert pending
    decide +kernel

end Aesd
