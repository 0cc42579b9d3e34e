import Aesd.Driver.Overflow

/-!
# Blocks lost past ten commands

The blocks of the first ten commands are never freed, and every later command frees its own block
when it is completed. So however long a run is, the device has at most one live block for each of
the first ten commands and one for the unfinished command. Unloading frees those a slot still
points to.
-/

namespace Aesd

open KernelMemory MachineInt Parties

namespace Log

/-- The blocks that are live: one for each of the first ten commands, and one for the
unfinished command. -/
def heldBlocks (log : Log) : Nat :=
  min log.completed.length maxWriteOperations + if log.unfinished = [] then 0 else 1

/-- A completed command has its newline. -/
theorem ne_nil_of_feed (bytes : List UInt8) :
    ∀ command ∈ (Log.empty.feed bytes).completed, command ≠ [] := by
  apply Runs.invariant_always (fun log : Log => ∀ command ∈ log.completed, command ≠ [])
  · intro log byte nonempty
    unfold Log.put
    split
    next =>
      intro command member
      rcases List.mem_append.mp member with earlier | new
      · exact nonempty command earlier
      · rw [List.mem_singleton.mp new]
        simp
    next => exact nonempty
  · simp [Log.empty]

end Log

/-- Known bytes are in a live block. -/
theorem exists_block_of_load {mem : Memory} {pointer : Pointer} {count : Nat}
    {bytes : List UInt8} (loaded : mem.load pointer count = bytes.map some)
    (nonempty : bytes ≠ []) : ∃ id, pointer = some (.block id) ∧ id ∈ mem.live := by
  have positive := List.length_pos_iff.mpr nonempty
  have length := congrArg List.length loaded
  rw [Memory.length_load, List.length_map] at length
  have first := congrArg (fun cells => cells[0]?) loaded
  simp only [List.getElem?_map, List.getElem?_eq_getElem positive, Option.map_some] at first
  rw [Memory.getElem?_load _ _ (by omega), Option.some.injEq] at first
  rcases pointer with - | - | id
  · cases first
  · cases first
  · refine ⟨id, rfl, ?_⟩
    by_contra gone
    rw [Memory.cell, if_neg (fun inside => gone inside.1)] at first
    cases first

namespace DriverState

/-- An allocation that requests bytes and does not fail gives a live block. -/
theorem Reserved.exists_block {state : DriverState} {grant : Option BlockId} {size : Nat}
    {pointer : Pointer} {mem : Memory} (reserved : Reserved state grant size pointer mem)
    (nonnull : pointer ≠ none) (positive : 0 < size) :
    ∃ id, pointer = some (.block id) ∧ id ∈ mem.live := by
  have sized := reserved.sizeOf nonnull
  have valid := reserved.valid
  rcases pointer with - | - | id
  · exact absurd rfl nonnull
  · rw [← sized] at positive
    cases positive
  · exact ⟨id, rfl, valid⟩

/-- With no pending bytes there is one block more. -/
theorem Reserved.card_of_fresh {state : DriverState} {grant : Option BlockId} {size : Nat}
    {pointer : Pointer} {mem : Memory} (reserved : Reserved state grant size pointer mem)
    (nonnull : pointer ≠ none) (positive : 0 < size) (fresh : state.dev.cbSize = 0) :
    mem.live.card = state.mem.live.card + 1 := by
  obtain ⟨new, rfl, isLive⟩ := reserved.exists_block nonnull positive
  have keeps := fun id old => reserved.keeps id old (fun pending => absurd fresh pending)
  have isNew : new ∉ state.mem.live := fun old => (keeps new old).2 rfl
  have live : mem.live = insert new state.mem.live := by
    ext id
    rw [Finset.mem_insert]
    constructor
    · intro member
      rcases reserved.origin id member with own | ⟨old, -⟩
      · cases own
        exact .inl rfl
      · exact .inr old
    · rintro (rfl | old)
      · exact isLive
      · exact (keeps id old).1
  rw [live, Finset.card_insert_of_notMem isNew]

/-- A pending block is replaced by one. -/
theorem Reserved.card_of_pending {state : DriverState} {grant : Option BlockId} {size : Nat}
    {pointer : Pointer} {mem : Memory} (reserved : Reserved state grant size pointer mem)
    (nonnull : pointer ≠ none) (positive : 0 < size) (pending : state.dev.cbSize ≠ 0)
    {old : BlockId} (held : state.dev.cbBuffer = some (.block old))
    (wasLive : old ∈ state.mem.live) : mem.live.card = state.mem.live.card := by
  obtain ⟨new, rfl, isLive⟩ := reserved.exists_block nonnull positive
  have keeps : ∀ id ∈ state.mem.live, id ≠ old → id ∈ mem.live ∧ id ≠ new := by
    intro id member apart
    have kept := reserved.keeps id member fun _ same => by
      rw [held] at same
      cases same
      exact apart rfl
    exact ⟨kept.1, fun same => kept.2 (same ▸ rfl)⟩
  have isNew : new ∉ state.mem.live.erase old := by
    intro member
    obtain ⟨apart, isOld⟩ := Finset.mem_erase.mp member
    exact (keeps new isOld apart).2 rfl
  have live : mem.live = insert new (state.mem.live.erase old) := by
    ext id
    rw [Finset.mem_insert, Finset.mem_erase]
    constructor
    · intro member
      rcases reserved.origin id member with own | ⟨isOld, apart⟩
      · cases own
        exact .inl rfl
      · refine .inr ⟨?_, isOld⟩
        rintro rfl
        exact apart nonnull pending held
    · rintro (rfl | ⟨apart, isOld⟩)
      · exact isLive
      · exact (keeps id isOld apart).1
  rw [live, Finset.card_insert_of_notMem isNew, Finset.card_erase_of_mem wasLive,
    Nat.sub_add_cancel (Finset.card_pos.mpr ⟨old, wasLive⟩)]

namespace Remains

variable {sign : CharSign} {state : DriverState} {log : Log} {call : WriteCall}

/-- Pending bytes have a live block. -/
theorem exists_pending (remains : state.Remains sign log) (inRange : log.InRange sign)
    (short : log.unfinished.length ≤ sign.max) (some_ : log.unfinished ≠ []) :
    state.dev.cbSize ≠ 0 ∧
      ∃ id, state.dev.cbBuffer = some (.block id) ∧ id ∈ state.mem.live := by
  obtain ⟨size, bytes⟩ := remains.pending inRange short
  have positive : 0 < log.unfinished.length := List.length_pos_iff.mpr some_
  have pending : state.dev.cbSize ≠ 0 := by
    intro zero
    rw [zero, sign.promote_zero] at size
    omega
  have loaded : state.mem.load state.dev.cbBuffer (sign.promote state.dev.cbSize).toNat =
      log.unfinished.map some := bytes
  exact ⟨pending, exists_block_of_load loaded some_⟩

/-- The allocation of a call adds a block exactly if the call starts a command. -/
theorem card_staged (remains : state.Remains sign log) (inRange : log.InRange sign)
    (succeeds : state.Succeeds sign call)
    (small : log.unfinished.length + call.bytes.length ≤ sign.max) :
    (state.staged sign call call.bytes).mem.live.card =
      state.mem.live.card + if log.unfinished = [] ∧ call.bytes ≠ [] then 1 else 0 := by
  have bound := sign.max_le
  have reserved := state.reserved sign call.grant call.bytes.length
  have nonnull := staged_nonnull succeeds.granted
  obtain ⟨size, -⟩ := remains.pending inRange (by omega)
  have requested := request_of_lt sign state call.bytes.length (by omega) (by omega)
  change (Memory.copyFromUser _ _ _ _ _).2.live.card = _
  rw [Memory.live_copyFromUser]
  by_cases fresh : log.unfinished = []
  case pos =>
    have zero : state.dev.cbSize = 0 := by
      have residue := sign.promote_emod state.dev.cbSize
      rw [size, fresh] at residue
      exact UInt8.toNat_inj.mp (by simpa using residue.symm)
    by_cases empty : call.bytes = []
    case pos =>
      rw [if_neg (not_and.mpr fun _ some_ => some_ empty), DriverState.reserve, if_pos zero,
        empty]
      rfl
    case neg =>
      rw [if_pos ⟨fresh, empty⟩]
      have positive := List.length_pos_iff.mpr empty
      exact reserved.card_of_fresh nonnull (by omega) zero
  case neg =>
    rw [if_neg (not_and.mpr fun isFresh _ => fresh isFresh), Nat.add_zero]
    obtain ⟨pending, old, held, wasLive⟩ := remains.exists_pending inRange (by omega) fresh
    have positive := List.length_pos_iff.mpr fresh
    exact reserved.card_of_pending nonnull (by omega) pending held wasLive

/-- A call without a newline. -/
theorem card_unfinished (remains : state.Remains sign log) (succeeds : state.Succeeds sign call)
    (missing : newline ∉ call.bytes) (within : (log.feed call.bytes).Within sign)
    (held : state.mem.live.card = log.heldBlocks) :
    (writeStep sign state call).mem.live.card = (log.feed call.bytes).heldBlocks := by
  have before := within.of_feed
  rw [Log.feed_of_notMem _ missing] at within ⊢
  have small := within.2
  rw [List.length_append] at small
  rw [succeeds.writeStep_eq, accept_of_notMem sign _ missing]
  change (state.staged sign call call.bytes).mem.live.card = _
  rw [remains.card_staged before.1 succeeds small, held]
  unfold Log.heldBlocks
  by_cases fresh : log.unfinished = []
  case pos =>
    by_cases empty : call.bytes = []
    case pos => simp [fresh, empty]
    case neg => simp [fresh, empty]
  case neg => simp [fresh]

/-- A call that ends a command. On a full device it frees the block it has got. -/
theorem card_line (remains : state.Remains sign log) (succeeds : state.Succeeds sign call)
    {line : List UInt8} (isLine : call.bytes = line ++ [newline]) (missing : newline ∉ line)
    (within : (log.feed call.bytes).Within sign)
    (held : state.mem.live.card = log.heldBlocks) :
    (writeStep sign state call).mem.live.card = (log.feed call.bytes).heldBlocks := by
  have before := within.of_feed
  have some_ : call.bytes ≠ [] := by simp [isLine]
  rw [isLine, Log.feed_line _ missing, ← isLine] at within ⊢
  have small := within.1 _ (List.mem_append_right _ List.mem_cons_self)
  rw [List.length_append] at small
  have staged := remains.card_staged before.1 succeeds small
  have holding := remains.wellFormed.staged sign call call.bytes
  have nonnull := staged_nonnull succeeds.granted
  have total : state.mem.live.card + (if log.unfinished = [] ∧ call.bytes ≠ [] then 1 else 0) =
      min log.completed.length maxWriteOperations + 1 := by
    rw [held, Log.heldBlocks]
    by_cases fresh : log.unfinished = []
    case pos => simp [fresh, some_]
    case neg => simp [fresh]
  rw [total] at staged
  rw [succeeds.writeStep_line isLine missing, Log.heldBlocks, List.length_append,
    List.length_singleton, if_pos rfl]
  by_cases full : state.dev.circBuffer.full = true
  case pos =>
    have late := (remains.full_iff before.1).mp full
    rw [complete_of_full _ _ _ holding.ring full nonnull]
    dsimp only
    obtain ⟨size, -⟩ := remains.pending before.1 before.2
    have requested := request_of_lt sign state call.bytes.length (by omega)
      (by have := sign.max_le; omega)
    have positive := List.length_pos_iff.mpr some_
    obtain ⟨id, isBlock, isLive⟩ :=
      (state.reserved sign call.grant call.bytes.length).exists_block nonnull (by omega)
    change (state.staged sign call call.bytes).dev.cbBuffer = some (.block id) at isBlock
    have stagedLive : id ∈ (state.staged sign call call.bytes).mem.live := by
      change id ∈ (Memory.copyFromUser _ _ _ _ _).2.live
      rwa [Memory.live_copyFromUser]
    rw [isBlock]
    change ((state.staged sign call call.bytes).mem.live.erase id).card = _
    rw [Finset.card_erase_of_mem stagedLive, staged]
    omega
  case neg =>
    have early := Nat.lt_of_not_le (mt (remains.full_iff before.1).mpr full)
    rw [complete_of_open sign (state.staged sign call call.bytes) _
      (Bool.eq_false_of_not_eq_true full)]
    dsimp only
    omega

/-- The blocks of the slots are those of the visible commands. -/
theorem exists_slotBlocks (remains : state.Remains sign log) (inRange : log.InRange sign)
    (nonempty : ∀ command ∈ log.completed, command ≠ []) :
    ∃ blocks : Finset BlockId, blocks.card = log.visible.length ∧
      ∀ id, id ∈ blocks ↔ ∃ index < maxWriteOperations,
        (state.dev.circBuffer.slot index).buffptr = some (.block id) := by
  have readable := remains.readableUpTo inRange
  have few : log.visible.length ≤ maxWriteOperations := by
    rw [Log.length_visible]
    omega
  have each : ∀ place : Fin log.visible.length, ∃ id,
      (state.dev.circBuffer.slot
        ((state.dev.circBuffer.outOffs + place) % maxWriteOperations)).buffptr =
          some (.block id) := by
    intro place
    have isVisible := List.getElem?_eq_getElem place.isLt
    have selected : state.commands[place.val]? =
        some (log.visible[place.val].map some) := by
      rw [remains.commands inRange, log.remnant_eq, List.getElem?_append_left (by simp),
        List.getElem?_map, isVisible, Option.map_some]
    rw [DriverState.commands, List.getElem?_map] at selected
    obtain ⟨entry, retained, loaded⟩ := Option.map_eq_some_iff.mp selected
    have member := List.mem_of_mem_take (List.mem_of_mem_drop (List.mem_of_getElem? isVisible))
    obtain ⟨id, isBlock, -⟩ := exists_block_of_load loaded (nonempty _ member)
    exact ⟨id, by rw [AesdCircularBuffer.slot_of_retained retained, isBlock]⟩
  choose block held using each
  refine ⟨Finset.univ.image block, ?_, ?_⟩
  · have apart : Function.Injective block := by
      intro first second same
      have one := held first
      rw [same] at one
      have sameIndex := remains.wellFormed.entryApart _ _ _ one (held second)
      rcases lt_trichotomy first second with less | equal | more
      · exact absurd sameIndex (Window.offset_ne less (second.isLt.trans_le few))
      · exact equal
      · exact absurd sameIndex.symm (Window.offset_ne more (first.isLt.trans_le few))
    rw [Finset.card_image_of_injective _ apart, Finset.card_univ, Fintype.card_fin]
  · intro id
    constructor
    · intro member
      obtain ⟨place, -, rfl⟩ := Finset.mem_image.mp member
      exact ⟨_, Nat.mod_lt _ (by decide), held place⟩
    · rintro ⟨index, inside, isBlock⟩
      have walked := (AesdCircularBuffer.mem_walk_iff remains.wellFormed.ring _).mpr
        ⟨index, inside, rfl⟩
      rw [remains.wellFormed.ring.walk_eq] at walked
      rcases List.mem_append.mp walked with isRetained | isZero
      · obtain ⟨place, retained⟩ := List.mem_iff_getElem?.mp isRetained
        have early := (readable.blocks place _ retained).mp (by simp [isBlock])
        have same := held ⟨place, early⟩
        rw [AesdCircularBuffer.slot_of_retained retained, isBlock] at same
        cases same
        exact Finset.mem_image_of_mem block (Finset.mem_univ _)
      · rw [List.eq_of_mem_replicate isZero] at isBlock
        cases isBlock

end Remains

/-- The number of live blocks after successful calls whose newlines are last bytes. -/
theorem card_live_run {sign : CharSign} {calls : List WriteCall}
    (successful : Runs.Along (Aesd.writeStep sign)
      (fun state call => (aesdWrite sign state call).1 = call.bytes.length)
      aesdInitModule calls)
    (lines : ∀ call ∈ calls, newline ∉ call.bytes.dropLast)
    (within : (Log.empty.feed (calls.flatMap WriteCall.bytes)).Within sign) :
    (Runs.run (Aesd.writeStep sign) aesdInitModule calls).mem.live.card =
      (Log.empty.feed (calls.flatMap WriteCall.bytes)).heldBlocks := by
  have both := run_lines
    (fun state log => state.Remains sign log ∧
      (log.Within sign → state.mem.live.card = log.heldBlocks))
    (fun _ _ _ holds succeeds missing => ⟨holds.1.unfinished succeeds missing, fun within =>
      holds.1.card_unfinished succeeds missing within (holds.2 within.of_feed)⟩)
    (fun _ _ _ _ holds succeeds isLine missing => ⟨holds.1.line succeeds isLine missing,
      fun within => holds.1.card_line succeeds isLine missing within (holds.2 within.of_feed)⟩)
    ⟨remains_init sign, fun _ => rfl⟩ successful lines
  exact both.2 within

end DriverState

/-- Lost blocks. After successful writes whose newlines are last bytes and whose commands are in
the range of `char`, unloading the module leaves as many blocks live as commands were completed
past the tenth, but at most ten, and one more if a command is unfinished. -/
theorem card_live_unloaded (sign : CharSign) (calls : List WriteCall)
    (successful : Runs.Along (writeStep sign)
      (fun state call => (aesdWrite sign state call).1 = call.bytes.length)
      aesdInitModule calls)
    (lines : ∀ call ∈ calls, newline ∉ call.bytes.dropLast)
    (within : (Log.empty.feed (calls.flatMap WriteCall.bytes)).Within sign) :
    let log := Log.empty.feed (calls.flatMap WriteCall.bytes)
    (aesdCleanupModule (Runs.run (writeStep sign) aesdInitModule calls)).mem.live.card =
      min (log.completed.length - maxWriteOperations) maxWriteOperations +
        if log.unfinished = [] then 0 else 1 := by
  intro log
  have remains : (Runs.run (writeStep sign) aesdInitModule calls).Remains sign log :=
    DriverState.remains_run successful lines
  have held : (Runs.run (writeStep sign) aesdInitModule calls).mem.live.card =
      log.heldBlocks := DriverState.card_live_run successful lines within
  obtain ⟨blocks, card, mem_blocks⟩ := remains.exists_slotBlocks within.1 (Log.ne_nil_of_feed _)
  have wf := remains.wellFormed
  have sofar := givesBackValid_run sign calls
  have live : (aesdCleanupModule (Runs.run (writeStep sign) aesdInitModule calls)).mem.live =
      (Runs.run (writeStep sign) aesdInitModule calls).mem.live \ blocks := by
    ext id
    rw [Finset.mem_sdiff, mem_blocks]
    exact ((wf.freeing sofar maxWriteOperations).1 id).trans (by simp)
  have owned : blocks ⊆ (Runs.run (writeStep sign) aesdInitModule calls).mem.live := by
    intro id member
    obtain ⟨index, -, isBlock⟩ := (mem_blocks id).mp member
    have valid := wf.entryValid index
    rwa [isBlock] at valid
  rw [live, Finset.card_sdiff_of_subset owned, card, held, Log.heldBlocks, Log.length_visible]
  omega

/-- Twelve lines and an unfinished one leave three blocks. -/
theorem card_live_unloaded_twelve_lines :
    let calls := (List.range 12).map (.granted [newline]) ++ [.granted [97] 12]
    (aesdCleanupModule (Runs.run (writeStep .signed) aesdInitModule calls)).mem.live.card =
      3 := by
  intro calls
  have unloaded := card_live_unloaded .signed calls (by decide +kernel) (by decide) (by decide)
  refine Eq.trans unloaded ?_
  decide

end Aesd
