import Aesd.Driver.Ownership

/-!
# Lost blocks

A live block that neither a slot nor `cb_buffer` points to is lost: nothing will
ever free it. A call of `aesd_write` loses a block in three ways. It replaces a
`cb_buffer` that owns a block while no bytes count as pending, it stores the
null result of a failed `krealloc` over the pending block, or it evicts a
command and frees the wrong block. `KeepsBlocks` excludes the three, and then no
block is lost over a whole run.
-/

namespace Aesd

open KernelMemory MachineInt

namespace DriverState

/-- A slot or `cb_buffer` points to the block. -/
def Owned (state : DriverState) (id : BlockId) : Prop :=
  (∃ index < maxWriteOperations,
    (state.dev.circBuffer.slot index).buffptr = some (.block id)) ∨
    state.dev.cbBuffer = some (.block id)

/-- Every live block is owned. -/
def NoLeak (state : DriverState) : Prop := ∀ id ∈ state.mem.live, state.Owned id

/-- `cb_buffer` has no live block of its own: it is shared with a slot, or is not
a live block. -/
def PendingShared (state : DriverState) : Prop :=
  ∀ id ∈ state.mem.live, state.dev.cbBuffer = some (.block id) →
    ∃ index < maxWriteOperations,
      (state.dev.circBuffer.slot index).buffptr = some (.block id)

instance (state : DriverState) : Decidable state.NoLeak :=
  inferInstanceAs (Decidable (∀ id ∈ state.mem.live, _ ∨ _))

instance (state : DriverState) : Decidable state.PendingShared :=
  inferInstanceAs (Decidable (∀ id ∈ state.mem.live, _ → _))

/-- The condition under which a call loses no block: a block that is only
`cb_buffer`'s is pending and its reallocation does not fail, and no command is
completed while the circular buffer is full. -/
def KeepsBlocks (sign : CharSign) (state : DriverState) (call : WriteCall) : Prop :=
  match call.buf with
  | none => True
  | some buf =>
      call.privateData = true → call.lock = true →
        (state.PendingShared ∨
          (state.dev.cbSize ≠ 0 ∧ ¬state.Starves sign call buf)) ∧
        (newline ∈ buf → ¬state.Starves sign call buf → call.Copies buf →
          state.dev.circBuffer.full = false)

instance (sign : CharSign) (state : DriverState) (call : WriteCall) :
    Decidable (state.KeepsBlocks sign call) := by
  unfold KeepsBlocks
  split <;> infer_instance

theorem KeepsBlocks.apply {sign : CharSign} {state : DriverState} {call : WriteCall}
    (keeps : state.KeepsBlocks sign call) {buf : List UInt8} (enters : call.Enters buf) :
    (state.PendingShared ∨ (state.dev.cbSize ≠ 0 ∧ ¬state.Starves sign call buf)) ∧
      (newline ∈ buf → ¬state.Starves sign call buf → call.Copies buf →
        state.dev.circBuffer.full = false) := by
  unfold KeepsBlocks at keeps
  rw [enters.buf_eq] at keeps
  exact keeps enters.privateData enters.lock

/-- What evicting the oldest command should do with the blocks: free the block of
that command and keep the block of the new one in a slot. -/
def EvictsCleanly (sign : CharSign) (state : DriverState) (call : WriteCall) : Prop :=
  ∀ buf, call.Enters buf → newline ∈ buf → ¬state.Starves sign call buf → call.Copies buf →
    state.dev.circBuffer.full = true →
      let after := writeStep sign state call
      (∀ id, (state.dev.circBuffer.slot state.dev.circBuffer.outOffs).buffptr =
        some (.block id) → id ∉ after.mem.live) ∧
      ValidIn after.mem.live after.dev.cbBuffer ∧
      ∃ index < maxWriteOperations,
        (after.dev.circBuffer.slot index).buffptr = after.dev.cbBuffer

/-- What is live after the allocation of a write was live before, or is what the
allocation returned. -/
theorem NoLeak.reserved {state : DriverState} (noLeak : state.NoLeak)
    {grant : Option BlockId} {size : Nat} {pointer : Pointer} {mem : Memory}
    (reserved : Reserved state grant size pointer mem)
    (kept : state.PendingShared ∨ (state.dev.cbSize ≠ 0 ∧ pointer ≠ none)) :
    ∀ id ∈ mem.live, (∃ index < maxWriteOperations,
      (state.dev.circBuffer.slot index).buffptr = some (.block id)) ∨
        pointer = some (.block id) := by
  intro id isLive
  rcases reserved.origin id isLive with own | ⟨old, apart⟩
  · exact .inr own
  · rcases noLeak id old with inSlot | pending
    · exact .inl inSlot
    · rcases kept with shared | ⟨bytes, nonnull⟩
      · exact .inl (shared id old pending)
      · exact absurd pending (apart nonnull bytes)

theorem NoLeak.starved {state : DriverState} (noLeak : state.NoLeak) (sign : CharSign)
    (call : WriteCall) (buf : List UInt8) (starves : state.Starves sign call buf)
    (shared : state.PendingShared) : (state.starved sign call buf).NoLeak := by
  have reserved := state.reserved sign call.grant buf.length
  have null : (state.reserve sign call.grant buf.length).1 = none := reserved.refused.mpr starves
  intro id isLive
  rcases noLeak.reserved reserved (.inl shared) id isLive with inSlot | own
  · exact .inl inSlot
  · rw [null] at own
    simp at own

theorem NoLeak.staged {state : DriverState} (noLeak : state.NoLeak) (sign : CharSign)
    (call : WriteCall) (buf : List UInt8) (granted : ¬state.Starves sign call buf)
    (kept : state.PendingShared ∨ state.dev.cbSize ≠ 0) :
    (state.staged sign call buf).NoLeak := by
  have reserved := state.reserved sign call.grant buf.length
  intro id isLive
  exact noLeak.reserved reserved (kept.imp_right fun bytes => ⟨bytes, staged_nonnull granted⟩)
    id (by simpa [DriverState.staged] using isLive)

/-- A command that finds room takes its block from `cb_buffer` to a slot that held
none. -/
theorem NoLeak.accept {state : DriverState} (noLeak : state.NoLeak) (holding : state.Holding)
    (sign : CharSign) (buf : List UInt8)
    (room : newline ∈ buf → state.dev.circBuffer.full = false) :
    (state.accept sign buf).NoLeak := by
  cases found : buf.findIdx? (· = newline) with
  | none => rw [state.accept_of_none sign found]; exact noLeak
  | some i =>
      have present : newline ∈ buf := by
        by_contra missing
        rw [Lines.findIdx?_of_notMem missing] at found
        simp at found
      have opened := room present
      rw [state.accept_of_newline sign found, state.complete_of_open sign (i + 1) opened]
      intro id isLive
      rcases noLeak id isLive with ⟨index, inside, held⟩ | pending
      · refine .inl ⟨index, inside, ?_⟩
        rcases holding.slots_addEntry
          ⟨state.dev.cbBuffer, state.recordedSize sign (i + 1)⟩ index with
          ⟨same, -⟩ | ⟨-, slot⟩
        · have unused := holding.ring.unused opened index (same ▸ le_rfl)
          rw [unused] at held
          simp [AesdBufferEntry.zero] at held
        · simpa only [slot] using held
      · exact .inr pending

end DriverState

/-- A call that meets the condition loses no block. -/
theorem noLeak_writeStep (sign : CharSign) (state : DriverState) (call : WriteCall)
    (wf : state.WellFormed) (noLeak : state.NoLeak) (keeps : state.KeepsBlocks sign call) :
    (writeStep sign state call).NoLeak := by
  unfold writeStep
  rcases aesdWrite_cases sign state call with ⟨-, -, same⟩ |
    ⟨buf, enters, ⟨starves, result⟩ | ⟨granted, -, result⟩ | ⟨granted, copies, result⟩⟩
  · rw [same]
    exact noLeak
  · rw [result]
    refine noLeak.starved sign call buf starves ?_
    rcases (keeps.apply enters).1 with shared | ⟨-, granted⟩
    · exact shared
    · exact absurd starves granted
  · rw [result]
    exact noLeak.staged sign call buf granted ((keeps.apply enters).1.imp_right And.left)
  · rw [result]
    exact (noLeak.staged sign call buf granted
      ((keeps.apply enters).1.imp_right And.left)).accept (wf.staged sign call buf) sign buf
        fun present => (keeps.apply enters).2 present granted copies

/-- After the slots are freed, what is left is what only `cb_buffer` owned. -/
theorem cleanup_live (state : DriverState) (wf : state.WellFormed)
    (sofar : state.GivesBackValid) (noLeak : state.NoLeak) (shared : state.PendingShared) :
    (aesdCleanupModule state).mem.live = ∅ := by
  apply Finset.eq_empty_of_forall_notMem
  intro id isLive
  obtain ⟨old, apart⟩ := ((wf.freeing sofar maxWriteOperations).1 id).mp isLive
  rcases noLeak id old with ⟨index, inside, held⟩ | pending
  · exact apart index inside held
  · obtain ⟨index, inside, held⟩ := shared id old pending
    exact apart index inside held

/-- No lost blocks. In a run whose calls all meet `KeepsBlocks`, every live block
is owned in the state reached, and unloading the module with no block left to
`cb_buffer` alone leaves none live. No command is completed in it on a full
buffer, so there is no eviction that could free the wrong block. -/
theorem no_lost_blocks (sign : CharSign) (calls : List WriteCall)
    (keeps : Runs.Along (writeStep sign) (DriverState.KeepsBlocks sign) aesdInitModule calls) :
    let state := Runs.run (writeStep sign) aesdInitModule calls
    state.NoLeak ∧
    Runs.Along (writeStep sign) (DriverState.EvictsCleanly sign) aesdInitModule calls ∧
    (state.PendingShared → (aesdCleanupModule state).mem.live = ∅) := by
  intro state
  have reached : state.WellFormed ∧ state.NoLeak :=
    Runs.invariant (fun state => state.WellFormed ∧ state.NoLeak)
      (fun state call holds met => ⟨wellFormed_writeStep sign state call holds.1,
        noLeak_writeStep sign state call holds.1 holds.2 met⟩)
      ⟨DriverState.wellFormed_init, by simp [DriverState.NoLeak, aesdInitModule,
        Memory.empty]⟩ keeps
  refine ⟨reached.2, keeps.mono fun state call met buf enters present granted copies full => ?_,
    cleanup_live state reached.1 (givesBackValid_run sign calls) reached.2⟩
  simp [(met.apply enters).2 present granted copies] at full

/-- A command in two parts and another one, with an allocation that fails while
nothing is pending, and a copy and a lock that fail behind the first part. -/
theorem no_lost_blocks_failed_copy :
    let calls := [{ WriteCall.granted [97] 0 with grant := none }, .granted [97] 0,
      { WriteCall.granted [98, newline] 1 with uncopied := 1 },
      { WriteCall.granted [98, newline] 2 with lock := false },
      .granted [98, newline] 2, .granted [newline] 3]
    let state := Runs.run (writeStep .signed) aesdInitModule calls
    state.NoLeak ∧
    Runs.Along (writeStep .signed) (DriverState.EvictsCleanly .signed) aesdInitModule calls ∧
    (aesdCleanupModule state).mem.live = ∅ := by
  intro calls state
  obtain ⟨noLeak, cleanly, unloaded⟩ := no_lost_blocks .signed calls (by decide +kernel)
  exact ⟨noLeak, cleanly, unloaded (by decide +kernel)⟩

/-- The eleventh line frees its own block, and the block of the first line is lost
for good. -/
theorem lost_block_of_eleven_lines :
    let state := Runs.run (writeStep .signed) aesdInitModule
      ((List.range 11).map (.granted [newline]))
    ¬state.NoLeak ∧ (aesdCleanupModule state).mem.live ≠ ∅ := by
  decide +kernel

end Aesd
