import Aesd.Driver.Write

/-!
# Who owns the blocks of the driver

Every block of the driver is reached through one of eleven pointers: the ten
slots and `cb_buffer`. `WellFormed` is the invariant every call of `aesd_write`
keeps, whatever its buffer and whatever fails: slots hold no freed block and
share none, and while bytes are pending neither does `cb_buffer`. It makes every
pointer given back to the allocator valid, up to the unloading of the module.
-/

namespace Aesd

open KernelMemory MachineInt

namespace DriverState

/-- The slots hold valid pointers and share no block. -/
structure EntriesOwn (state : DriverState) : Prop where
  ring : state.dev.circBuffer.WellFormed
  entryValid : ∀ index, ValidIn state.mem.live (state.dev.circBuffer.slot index).buffptr
  entryApart : ∀ index other id,
    (state.dev.circBuffer.slot index).buffptr = some (.block id) →
      (state.dev.circBuffer.slot other).buffptr = some (.block id) → index = other

/-- The invariant of the device between two calls. With no pending bytes
`cb_buffer` may be anything, also a freed block. -/
structure WellFormed (state : DriverState) : Prop extends EntriesOwn state where
  pendingValid : state.dev.cbSize ≠ 0 → ValidIn state.mem.live state.dev.cbBuffer
  pendingApart : state.dev.cbSize ≠ 0 → ∀ index id,
    (state.dev.circBuffer.slot index).buffptr = some (.block id) →
      state.dev.cbBuffer ≠ some (.block id)

/-- The invariant inside of a call, once it has its block. -/
structure Holding (state : DriverState) : Prop extends EntriesOwn state where
  pendingValid : ValidIn state.mem.live state.dev.cbBuffer
  pendingApart : ∀ index id,
    (state.dev.circBuffer.slot index).buffptr = some (.block id) →
      state.dev.cbBuffer ≠ some (.block id)

theorem Holding.wellFormed {state : DriverState} (holding : state.Holding) :
    state.WellFormed :=
  { holding.toEntriesOwn with
    pendingValid := fun _ => holding.pendingValid
    pendingApart := fun _ => holding.pendingApart }

theorem wellFormed_init : aesdInitModule.WellFormed where
  ring := AesdCircularBuffer.wellFormed_init
  entryValid index := by simp [aesdInitModule, AesdBufferEntry.zero, ValidIn]
  entryApart index other id held := by simp [aesdInitModule, AesdBufferEntry.zero] at held
  pendingValid := by simp [aesdInitModule]
  pendingApart := by simp [aesdInitModule]

/-- The allocation of a write takes no block away from a slot. -/
theorem WellFormed.slot_kept {state : DriverState} (wf : state.WellFormed)
    {grant : Option BlockId} {size : Nat} {pointer : Pointer} {mem : Memory}
    (reserved : Reserved state grant size pointer mem) {index : Nat} {id : BlockId}
    (held : (state.dev.circBuffer.slot index).buffptr = some (.block id)) :
    id ∈ mem.live ∧ pointer ≠ some (.block id) := by
  have isLive : id ∈ state.mem.live := by
    simpa [held, ValidIn] using wf.entryValid index
  exact reserved.keeps id isLive fun pending => wf.pendingApart pending index id held

theorem WellFormed.entryValid_of_reserved {state : DriverState} (wf : state.WellFormed)
    {grant : Option BlockId} {size : Nat} {pointer : Pointer} {mem : Memory}
    (reserved : Reserved state grant size pointer mem) (index : Nat) :
    ValidIn mem.live (state.dev.circBuffer.slot index).buffptr := by
  rcases held : (state.dev.circBuffer.slot index).buffptr with - | - | id
  · trivial
  · trivial
  · exact (wf.slot_kept reserved held).1

theorem WellFormed.starved {state : DriverState} (wf : state.WellFormed) (sign : CharSign)
    (call : WriteCall) (buf : List UInt8) : (state.starved sign call buf).WellFormed where
  ring := wf.ring
  entryValid := wf.entryValid_of_reserved (state.reserved sign call.grant buf.length)
  entryApart := wf.entryApart
  pendingValid _ := trivial
  pendingApart _ _ _ _ := by simp [DriverState.starved]

theorem WellFormed.staged {state : DriverState} (wf : state.WellFormed) (sign : CharSign)
    (call : WriteCall) (buf : List UInt8) : (state.staged sign call buf).Holding := by
  have reserved := state.reserved sign call.grant buf.length
  exact {
    ring := wf.ring
    entryValid := fun index => by
      simpa [DriverState.staged] using wf.entryValid_of_reserved reserved index
    entryApart := wf.entryApart
    pendingValid := by simpa [DriverState.staged] using reserved.valid
    pendingApart := fun index id held => (wf.slot_kept reserved held).2 }

/-- The pointer of a staged call is null only when its allocation has failed. -/
theorem staged_nonnull {sign : CharSign} {state : DriverState} {call : WriteCall}
    {buf : List UInt8}
    (granted : ¬state.Starves sign call buf) :
    (state.staged sign call buf).dev.cbBuffer ≠ none :=
  fun failed => granted ((state.reserved sign call.grant buf.length).refused.mp failed)

/-- The slots after a command has gone to the buffer. -/
theorem Holding.slots_addEntry {state : DriverState} (holding : state.Holding)
    (entry : AesdBufferEntry Address) (index : Nat) :
    (index = state.dev.circBuffer.inOffs ∧
      (state.dev.circBuffer.aesdCircularBufferAddEntry entry).2.slot index = entry) ∨
    (index ≠ state.dev.circBuffer.inOffs ∧
      (state.dev.circBuffer.aesdCircularBufferAddEntry entry).2.slot index =
        state.dev.circBuffer.slot index) := by
  by_cases same : index = state.dev.circBuffer.inOffs
  · exact .inl ⟨same, same ▸ AesdCircularBuffer.slot_addEntry_self _ _ holding.ring.inOffs_lt⟩
  · exact .inr ⟨same, AesdCircularBuffer.slot_addEntry_of_ne _ _ same⟩

theorem Holding.complete {state : DriverState} (holding : state.Holding) (sign : CharSign)
    (actualSize : Nat) (nonnull : state.dev.cbBuffer ≠ none) :
    (state.complete sign actualSize).WellFormed := by
  cases full : state.dev.circBuffer.full with
  | false =>
      rw [state.complete_of_open sign actualSize full]
      have slots := holding.slots_addEntry
        ⟨state.dev.cbBuffer, state.recordedSize sign actualSize⟩
      exact {
        ring := holding.ring.addEntry _
        entryValid := fun index => by
          rcases slots index with ⟨-, slot⟩ | ⟨-, slot⟩ <;> simp only [slot]
          · exact holding.pendingValid
          · exact holding.entryValid index
        entryApart := fun index other id held otherHeld => by
          rcases slots index with ⟨same, slot⟩ | ⟨-, slot⟩ <;>
            rcases slots other with ⟨otherSame, otherSlot⟩ | ⟨-, otherSlot⟩ <;>
            simp only [slot, otherSlot] at held otherHeld
          · exact same.trans otherSame.symm
          · exact absurd held (holding.pendingApart other id otherHeld)
          · exact absurd otherHeld (holding.pendingApart index id held)
          · exact holding.entryApart index other id held otherHeld
        pendingValid := by simp
        pendingApart := by simp }
  | true =>
      rw [state.complete_of_full sign actualSize holding.ring full nonnull]
      have slots := holding.slots_addEntry ⟨none, state.recordedSize sign actualSize⟩
      exact {
        ring := holding.ring.addEntry _
        entryValid := fun index => by
          rcases slots index with ⟨-, slot⟩ | ⟨-, slot⟩ <;> simp only [slot]
          · trivial
          · have valid := holding.entryValid index
            rcases held : (state.dev.circBuffer.slot index).buffptr with - | - | id
            · trivial
            · trivial
            · rw [held] at valid
              exact (Memory.mem_live_kfree ..).mpr
                ⟨valid, holding.pendingApart index id held⟩
        entryApart := fun index other id held otherHeld => by
          rcases slots index with ⟨-, slot⟩ | ⟨-, slot⟩ <;> simp only [slot] at held
          · simp at held
          · rcases slots other with ⟨-, otherSlot⟩ | ⟨-, otherSlot⟩ <;>
              simp only [otherSlot] at otherHeld
            · simp at otherHeld
            · exact holding.entryApart index other id held otherHeld
        pendingValid := by simp
        pendingApart := by simp }

theorem Holding.accept {state : DriverState} (holding : state.Holding) (sign : CharSign)
    (buf : List UInt8) (nonnull : state.dev.cbBuffer ≠ none) :
    (state.accept sign buf).WellFormed := by
  cases found : buf.findIdx? (· = newline) with
  | none =>
      rw [state.accept_of_none sign found]
      exact {
        ring := holding.ring
        entryValid := holding.entryValid
        entryApart := holding.entryApart
        pendingValid := fun _ => holding.pendingValid
        pendingApart := fun _ => holding.pendingApart }
  | some i =>
      rw [state.accept_of_newline sign found]
      exact holding.complete sign (i + 1) nonnull

end DriverState

/-! ## The invariant over runs -/

/-- Every call keeps the invariant, with any buffer and any failure. -/
theorem wellFormed_writeStep (sign : CharSign) (state : DriverState) (call : WriteCall)
    (wf : state.WellFormed) : (writeStep sign state call).WellFormed := by
  unfold writeStep
  rcases aesdWrite_cases sign state call with ⟨-, -, same⟩ |
    ⟨buf, -, ⟨-, result⟩ | ⟨-, -, result⟩ | ⟨granted, -, result⟩⟩
  · rw [same]
    exact wf
  · rw [result]
    exact wf.starved sign call buf
  · rw [result]
    exact (wf.staged sign call buf).wellFormed
  · rw [result]
    exact (wf.staged sign call buf).accept sign buf (DriverState.staged_nonnull granted)

/-- Every state reached by calls of `aesd_write` is well formed. -/
theorem wellFormed_run (sign : CharSign) (calls : List WriteCall) :
    (Runs.run (writeStep sign) aesdInitModule calls).WellFormed :=
  Runs.invariant_always DriverState.WellFormed (wellFormed_writeStep sign) calls
    DriverState.wellFormed_init

/-! ## Pointers given back to the allocator -/

namespace DriverState

/-- Every pointer given back so far was valid at that moment. -/
def GivesBackValid (state : DriverState) : Prop :=
  ∀ call ∈ state.mem.calls, call.PointerValid

theorem WellFormed.givesBackValid_reserve {state : DriverState} (wf : state.WellFormed)
    (sofar : state.GivesBackValid) (sign : CharSign) (grant : Option BlockId) (count : Nat) :
    ∀ call ∈ (state.reserve sign grant count).2.calls, call.PointerValid := by
  rw [(state.reserved sign grant count).calls]
  intro call member
  rcases List.mem_append.mp member with recent | earlier
  · split at recent
    next => simp at recent
    next pending =>
      obtain rfl := List.mem_singleton.mp recent
      exact wf.pendingValid pending
  · exact sofar call earlier

theorem WellFormed.givesBackValid_staged {state : DriverState} (wf : state.WellFormed)
    (sofar : state.GivesBackValid) (sign : CharSign) (call : WriteCall) (buf : List UInt8) :
    (state.staged sign call buf).GivesBackValid := by
  intro recorded member
  simp only [DriverState.staged, Memory.calls_copyFromUser, List.mem_cons] at member
  rcases member with rfl | earlier
  · trivial
  · exact wf.givesBackValid_reserve sofar sign call.grant buf.length recorded earlier

theorem Holding.givesBackValid_accept {state : DriverState} (holding : state.Holding)
    (sofar : state.GivesBackValid) (sign : CharSign) (buf : List UInt8)
    (nonnull : state.dev.cbBuffer ≠ none) : (state.accept sign buf).GivesBackValid := by
  cases found : buf.findIdx? (· = newline) with
  | none => rw [state.accept_of_none sign found]; exact sofar
  | some i =>
      rw [state.accept_of_newline sign found]
      cases full : state.dev.circBuffer.full with
      | false => rw [state.complete_of_open sign (i + 1) full]; exact sofar
      | true =>
          rw [state.complete_of_full sign (i + 1) holding.ring full nonnull]
          intro call member
          rcases List.mem_cons.mp (Memory.calls_kfree .. ▸ member) with rfl | earlier
          · exact holding.pendingValid
          · exact sofar call earlier

end DriverState

theorem givesBackValid_writeStep (sign : CharSign) (state : DriverState) (call : WriteCall)
    (wf : state.WellFormed) (sofar : state.GivesBackValid) :
    (writeStep sign state call).GivesBackValid := by
  unfold writeStep
  rcases aesdWrite_cases sign state call with ⟨-, -, same⟩ |
    ⟨buf, -, ⟨-, result⟩ | ⟨-, -, result⟩ | ⟨granted, -, result⟩⟩
  · rw [same]
    exact sofar
  · rw [result]
    exact wf.givesBackValid_reserve sofar sign call.grant buf.length
  · rw [result]
    exact wf.givesBackValid_staged sofar sign call buf
  · rw [result]
    exact (wf.staged sign call buf).givesBackValid_accept
      (wf.givesBackValid_staged sofar sign call buf) sign buf
      (DriverState.staged_nonnull granted)

/-- Every pointer given back in a run of writes was valid. -/
theorem givesBackValid_run (sign : CharSign) (calls : List WriteCall) :
    (Runs.run (writeStep sign) aesdInitModule calls).GivesBackValid := by
  have both := Runs.invariant_always
    (fun state : DriverState => state.WellFormed ∧ state.GivesBackValid)
    (fun state call holds => ⟨wellFormed_writeStep sign state call holds.1,
      givesBackValid_writeStep sign state call holds.1 holds.2⟩)
    calls ⟨DriverState.wellFormed_init, by
      simp [DriverState.GivesBackValid, aesdInitModule, Memory.empty]⟩
  exact both.2

/-- The memory while `aesd_cleanup_module` frees the slots below `visited`: it
frees each block once, and the blocks of the later slots are still live. -/
theorem DriverState.WellFormed.freeing {state : DriverState} (wf : state.WellFormed)
    (sofar : state.GivesBackValid) (visited : Nat) :
    let mem := (List.range visited).foldl
      (fun mem index => mem.kfree (state.dev.circBuffer.slot index).buffptr) state.mem
    (∀ id, id ∈ mem.live ↔ id ∈ state.mem.live ∧
      ∀ index < visited, (state.dev.circBuffer.slot index).buffptr ≠ some (.block id)) ∧
    ∀ call ∈ mem.calls, call.PointerValid := by
  induction visited with
  | zero => exact ⟨by simp, sofar⟩
  | succ visited ih =>
      obtain ⟨live, valid⟩ := ih
      simp only [List.range_succ, List.foldl_append, List.foldl_cons, List.foldl_nil]
      refine ⟨fun id => ?_, fun call member => ?_⟩
      · rw [Memory.mem_live_kfree, live]
        simp only [Nat.lt_succ_iff_lt_or_eq, or_imp, forall_and, forall_eq, and_assoc]
      · rcases List.mem_cons.mp (Memory.calls_kfree .. ▸ member) with rfl | earlier
        · have own := wf.entryValid visited
          rcases held : (state.dev.circBuffer.slot visited).buffptr with - | - | id
          · trivial
          · trivial
          · rw [held] at own
            refine (live id).mpr ⟨own, fun index below shared => ?_⟩
            have same := wf.entryApart index visited id shared held
            omega
        · exact valid call earlier

/-- Block lifetimes. Over every run of writes and the unloading of the module,
each pointer given to `kfree` or `krealloc` is valid at that moment; and in every
state reached a slot holds `NULL`, the zero-size pointer, or a live block that no
other slot and no pending command holds. -/
theorem block_lifetimes (sign : CharSign) (calls : List WriteCall) :
    let state := Runs.run (writeStep sign) aesdInitModule calls
    (∀ call ∈ (aesdCleanupModule state).mem.calls, call.PointerValid) ∧
    ∀ index < maxWriteOperations,
      let pointer := (state.dev.circBuffer.slot index).buffptr
      pointer = none ∨ pointer = some .zeroSize ∨
        ∃ id, pointer = some (.block id) ∧ id ∈ state.mem.live ∧
          (∀ other < maxWriteOperations, other ≠ index →
            (state.dev.circBuffer.slot other).buffptr ≠ pointer) ∧
          (state.dev.cbSize ≠ 0 → state.dev.cbBuffer ≠ pointer) := by
  intro state
  have wf : state.WellFormed := wellFormed_run sign calls
  have sofar : state.GivesBackValid := givesBackValid_run sign calls
  refine ⟨(wf.freeing sofar maxWriteOperations).2, fun index _ => ?_⟩
  intro pointer
  have valid : ValidIn state.mem.live pointer := wf.entryValid index
  rcases held : pointer with - | - | id
  · exact .inl rfl
  · exact .inr (.inl rfl)
  · rw [held] at valid
    refine .inr (.inr ⟨id, rfl, valid, ?_, ?_⟩)
    · intro other _ different shared
      exact different (wf.entryApart other index id shared held)
    · exact fun pending => wf.pendingApart pending index id held

end Aesd
