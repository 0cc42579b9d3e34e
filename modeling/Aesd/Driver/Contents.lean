import Aesd.Driver.Ownership

/-!
# What the device holds

Seen from outside, the device is a queue of the last ten commands and an
unfinished one. `Contents` is that abstract device, and `Contents.feed` is what
it does with a stream of bytes: a newline completes a command.

`DriverState.contents` reads the abstract device off the driver: the recorded
number of bytes from the block of each retained entry, and of the pending block.
A byte that is not in its block reads as unknown. The lemmas of this module say
how each exit of `aesd_write` changes it.
-/

namespace Aesd

open KernelMemory MachineInt

/-- The abstract device: the retained commands, oldest first, and the bytes of
the unfinished one. -/
structure Contents where
  commands : List (List Cell)
  pending : List Cell
  deriving DecidableEq

namespace Contents

/-- One more byte. A newline completes the pending command, and the oldest
command goes when there are more than ten. -/
def put (contents : Contents) (byte : UInt8) : Contents :=
  if byte = newline then
    ⟨Window.push maxWriteOperations contents.commands (contents.pending ++ [some byte]), []⟩
  else
    ⟨contents.commands, contents.pending ++ [some byte]⟩

/-- A stream of bytes. -/
def feed (contents : Contents) (bytes : List UInt8) : Contents :=
  Runs.run put contents bytes

@[simp] theorem feed_nil (contents : Contents) : contents.feed [] = contents := rfl

theorem feed_append (contents : Contents) (first second : List UInt8) :
    contents.feed (first ++ second) = (contents.feed first).feed second :=
  Runs.run_append put contents first second

/-- Bytes without a newline stay pending. -/
theorem feed_of_notMem (contents : Contents) {bytes : List UInt8}
    (missing : newline ∉ bytes) :
    contents.feed bytes = ⟨contents.commands, contents.pending ++ bytes.map some⟩ := by
  induction bytes generalizing contents with
  | nil => simp
  | cons byte bytes ih =>
      obtain ⟨notFirst, notRest⟩ : newline ≠ byte ∧ newline ∉ bytes := by simpa using missing
      have step : contents.put byte = ⟨contents.commands, contents.pending ++ [some byte]⟩ :=
        if_neg notFirst.symm
      rw [feed, Runs.run_cons, ← feed, step, ih _ notRest]
      simp

/-- A newline at the end completes a command. -/
theorem feed_line (contents : Contents) {line : List UInt8} (missing : newline ∉ line) :
    contents.feed (line ++ [newline]) =
      ⟨Window.push maxWriteOperations contents.commands
        (contents.pending ++ (line ++ [newline]).map some), []⟩ := by
  rw [feed_append, feed_of_notMem _ missing]
  simp [feed, put]

theorem length_commands_feed (contents : Contents) (bytes : List UInt8)
    (bounded : contents.commands.length ≤ maxWriteOperations) :
    (contents.feed bytes).commands.length =
      min maxWriteOperations (contents.commands.length + bytes.count newline) := by
  induction bytes generalizing contents with
  | nil => simpa using bounded
  | cons byte bytes ih =>
      rw [feed, Runs.run_cons, ← feed]
      by_cases isNewline : byte = newline
      · have length : (contents.put byte).commands.length =
            min (contents.commands.length + 1) maxWriteOperations := by
          rw [put, if_pos isNewline, Window.push, Window.length_rtake, List.length_append]
          rfl
        rw [ih _ (by rw [length]; exact min_le_right ..), length, isNewline,
          List.count_cons_self]
        omega
      · have same : (contents.put byte).commands = contents.commands := by
          rw [put, if_neg isNewline]
        rw [ih _ (same.symm ▸ bounded), same, List.count_cons_of_ne isNewline]

/-- What has been added to the device: the commands behind the earlier ones, and the pending bytes. -/
def cellsSince (before after : Contents) : List Cell :=
  (after.commands.drop before.commands.length).flatten ++ after.pending

/-- A stream that evicts nothing is added to the pending bytes. -/
theorem cellsSince_feed (contents : Contents) (bytes : List UInt8)
    (room : contents.commands.length + bytes.count newline ≤ maxWriteOperations) :
    contents.cellsSince (contents.feed bytes) = contents.pending ++ bytes.map some := by
  induction bytes using List.reverseRecOn with
  | nil => simp [cellsSince]
  | append_singleton bytes byte ih =>
      rw [List.count_append] at room
      have earlier := ih (by omega)
      have length := contents.length_commands_feed bytes (by omega)
      rw [List.map_append, ← List.append_assoc, ← earlier, feed_append]
      by_cases isNewline : byte = newline
      · rw [isNewline, List.count_singleton_self] at room
        have next : (contents.feed bytes).feed [byte] =
            ⟨(contents.feed bytes).commands ++ [(contents.feed bytes).pending ++ [some byte]],
              []⟩ := by
          rw [feed, Runs.run_cons, Runs.run_nil, put, if_pos isNewline,
            Window.push_of_lt (by omega)]
        rw [next, cellsSince, cellsSince]
        dsimp only
        rw [List.drop_append_of_le_length (by omega)]
        simp
      · have next : (contents.feed bytes).feed [byte] =
            ⟨(contents.feed bytes).commands, (contents.feed bytes).pending ++ [some byte]⟩ := by
          rw [feed, Runs.run_cons, Runs.run_nil, put, if_neg isNewline]
        rw [next, cellsSince, cellsSince]
        simp

/-- The last command completed by a stream ends with its newline. -/
theorem getLast?_commands_feed (contents : Contents) {bytes : List UInt8}
    (present : newline ∈ bytes) :
    ∃ command, (contents.feed bytes).commands.getLast? = some (command ++ [some newline]) := by
  induction bytes using List.reverseRecOn generalizing contents with
  | nil => simp at present
  | append_singleton bytes byte ih =>
      rw [feed_append]
      by_cases isNewline : byte = newline
      · refine ⟨(contents.feed bytes).pending, ?_⟩
        simp only [feed, put, isNewline, Window.push, List.rtake, Runs.run_cons, Runs.run_nil,
          if_true, List.getLast?_drop, List.length_append, List.length_singleton,
          List.getLast?_append, List.getLast?_singleton]
        rw [if_neg (by unfold maxWriteOperations; omega)]
        rfl
      · have earlier : newline ∈ bytes := by
          simpa [Ne.symm isNewline] using present
        obtain ⟨command, last⟩ := ih contents earlier
        exact ⟨command, by simpa [feed, put, isNewline] using last⟩

/-- Nothing is pending only after a newline. -/
theorem getLast?_of_pending_feed (contents : Contents) {bytes : List UInt8}
    (nonempty : bytes ≠ []) (finished : (contents.feed bytes).pending = []) :
    bytes.getLast? = some newline := by
  induction bytes using List.reverseRecOn with
  | nil => exact absurd rfl nonempty
  | append_singleton bytes byte ih =>
      by_cases isNewline : byte = newline
      · simp [isNewline]
      · rw [feed_append] at finished
        simp [feed, put, isNewline] at finished

end Contents

namespace DriverState

/-- The bytes of the retained commands, oldest first. -/
def commands (state : DriverState) : List (List Cell) :=
  state.dev.circBuffer.retained.map fun entry =>
    state.mem.load entry.buffptr entry.size.toNat

/-- The pending bytes. -/
def pending (sign : CharSign) (state : DriverState) : List Cell :=
  state.mem.load state.dev.cbBuffer (sign.promote state.dev.cbSize).toNat

/-- What the device holds. -/
def contents (sign : CharSign) (state : DriverState) : Contents :=
  ⟨state.commands, state.pending sign⟩

@[simp] theorem length_commands (state : DriverState) :
    state.commands.length = state.dev.circBuffer.count := by
  simp [commands]

@[simp] theorem length_pending (sign : CharSign) (state : DriverState) :
    (state.pending sign).length = (sign.promote state.dev.cbSize).toNat := by
  simp [pending]

theorem WellFormed.full_iff {state : DriverState} (wf : state.WellFormed) :
    state.dev.circBuffer.full = true ↔ state.commands.length = maxWriteOperations := by
  rw [length_commands, ← AesdCircularBuffer.length_retained]
  exact wf.ring.full_iff

theorem WellFormed.length_commands_lt {state : DriverState} (wf : state.WellFormed)
    (room : state.dev.circBuffer.full = false) :
    state.commands.length < maxWriteOperations := by
  rw [length_commands, ← AesdCircularBuffer.length_retained]
  exact wf.ring.length_retained_lt room

/-! ## Slots keep their bytes -/

/-- The allocation and the copy of a write touch no block of a slot. -/
theorem WellFormed.cell_slot {state : DriverState} (wf : state.WellFormed)
    {grant : Option BlockId} {size : Nat} {pointer : Pointer} {mem : Memory}
    (reserved : Reserved state grant size pointer mem) (slotIndex index : Nat) :
    mem.cell (state.dev.circBuffer.slot slotIndex).buffptr index =
      state.mem.cell (state.dev.circBuffer.slot slotIndex).buffptr index := by
  rcases held : (state.dev.circBuffer.slot slotIndex).buffptr with - | - | id
  · rfl
  · rfl
  · exact (reserved.frame _ (wf.slot_kept reserved held).2.symm
      fun bytes same => wf.pendingApart bytes slotIndex id held same.symm).2 index

/-- The retained entries are slots. -/
theorem mem_retained {state : DriverState} {entry : AesdBufferEntry Address}
    (member : entry ∈ state.dev.circBuffer.retained) :
    ∃ index, state.dev.circBuffer.slot index = entry := by
  obtain ⟨offset, -, rfl⟩ := List.mem_map.mp member
  exact ⟨_, rfl⟩

/-- The commands depend only on the cells of the slots. -/
theorem commands_congr {state other : DriverState}
    (ring : other.dev.circBuffer = state.dev.circBuffer)
    (cells : ∀ slotIndex index,
      other.mem.cell (state.dev.circBuffer.slot slotIndex).buffptr index =
        state.mem.cell (state.dev.circBuffer.slot slotIndex).buffptr index) :
    other.commands = state.commands := by
  rw [commands, commands, ring]
  apply List.map_congr_left
  intro entry member
  obtain ⟨slotIndex, rfl⟩ := mem_retained member
  exact Memory.load_congr fun index _ => cells slotIndex index

theorem WellFormed.commands_starved {state : DriverState} (wf : state.WellFormed)
    (sign : CharSign) (call : WriteCall) (buf : List UInt8) :
    (state.starved sign call buf).commands = state.commands :=
  commands_congr rfl (wf.cell_slot (state.reserved sign call.grant buf.length))

theorem WellFormed.commands_staged {state : DriverState} (wf : state.WellFormed)
    (sign : CharSign) (call : WriteCall) (buf : List UInt8) :
    (state.staged sign call buf).commands = state.commands := by
  have reserved := state.reserved sign call.grant buf.length
  have ring : (state.staged sign call buf).dev.circBuffer = state.dev.circBuffer := rfl
  refine commands_congr ring fun slotIndex index => ?_
  rw [← wf.cell_slot reserved slotIndex index]
  rcases held : (state.dev.circBuffer.slot slotIndex).buffptr with - | - | id
  · rfl
  · rfl
  · exact Memory.cell_copyFromUser_of_ne _ _ (wf.slot_kept reserved held).2.symm _ _ _

/-- A command that finds room joins the retained ones. -/
theorem Holding.commands_complete_of_open {state : DriverState} (holding : state.Holding)
    (sign : CharSign) (actualSize : Nat) (room : state.dev.circBuffer.full = false) :
    (state.complete sign actualSize).commands =
      state.commands ++
        [state.mem.load state.dev.cbBuffer (state.recordedSize sign actualSize).toNat] := by
  have short := holding.ring.length_retained_lt room
  rw [state.complete_of_open sign actualSize room]
  simp only [commands]
  rw [holding.ring.retained_addEntry, Window.push_of_lt short]
  simp

/-- On a full buffer the bytes of the new command are lost: its entry keeps the
recorded size, but no block. -/
theorem Holding.commands_complete_of_full {state : DriverState} (holding : state.Holding)
    (sign : CharSign) (actualSize : Nat) (full : state.dev.circBuffer.full = true)
    (nonnull : state.dev.cbBuffer ≠ none) :
    (state.complete sign actualSize).commands =
      state.commands.tail ++
        [List.replicate (state.recordedSize sign actualSize).toNat none] := by
  rw [state.complete_of_full sign actualSize holding.ring full nonnull]
  simp only [commands]
  rw [holding.ring.retained_addEntry,
    Window.push_of_eq (holding.ring.full_iff.mp full) (by decide), List.map_append,
    List.map_tail]
  congr 1
  · congr 1
    apply List.map_congr_left
    intro entry member
    obtain ⟨slotIndex, rfl⟩ := mem_retained member
    apply Memory.load_congr
    intro index _
    rcases held : (state.dev.circBuffer.slot slotIndex).buffptr with - | - | id
    · rfl
    · rfl
    · exact Memory.cell_kfree_of_ne _ _ (holding.pendingApart slotIndex id held).symm index
  · rw [List.map_singleton, List.singleton_inj]
    exact List.eq_replicate_iff.mpr ⟨by simp, by simp [Memory.load]⟩

/-! ## The block of a call -/

/-- After a complete copy that does not end before its block, the block holds the
bytes of the call behind the pending ones, as far as it goes. -/
theorem cell_staged {sign : CharSign} {state : DriverState} {call : WriteCall}
    {buf : List UInt8} (granted : ¬state.Starves sign call buf) (copies : call.Copies buf)
    (reaches : 0 ≤ sign.promote state.dev.cbSize + buf.length) (index : Nat) :
    (state.staged sign call buf).mem.cell (state.staged sign call buf).dev.cbBuffer index =
      if index < state.request sign buf.length then
        if index < sign.promote state.dev.cbSize then
          state.mem.cell state.dev.cbBuffer index
        else buf[(index - sign.promote state.dev.cbSize).toNat]?
      else none := by
  have reserved := state.reserved sign call.grant buf.length
  have nonnull := staged_nonnull granted
  have requested := toNat_toSizeT (sign.promote state.dev.cbSize + buf.length)
  simp only [staged]
  rw [Memory.cell_copyFromUser_self _ _ _ copies, reserved.sizeOf nonnull,
    reserved.contents nonnull index]
  by_cases inside : index < state.request sign buf.length
  · rw [if_pos inside]
    by_cases old : (index : Int) < sign.promote state.dev.cbSize
    · have bytes : state.dev.cbSize ≠ 0 := fun zero => by
        simp only [zero, CharSign.promote_zero] at old
        omega
      rw [if_neg (by omega), if_pos ⟨inside, bytes⟩, if_pos old]
    · have covered : (index : Int) < sign.promote state.dev.cbSize + buf.length := by
        unfold request at inside
        omega
      rw [if_pos ⟨inside, by omega, covered⟩, if_neg old]
  · rw [if_neg (by omega), if_neg (by omega), if_neg inside]

/-- Past its requested size the block of the call has no cells. -/
theorem cell_staged_outside {sign : CharSign} {state : DriverState} {call : WriteCall}
    {buf : List UInt8} (granted : ¬state.Starves sign call buf) (copies : call.Copies buf)
    {index : Nat} (outside : state.request sign buf.length ≤ index) :
    (state.staged sign call buf).mem.cell (state.staged sign call buf).dev.cbBuffer index =
      none := by
  have reserved := state.reserved sign call.grant buf.length
  have nonnull := staged_nonnull granted
  simp only [staged]
  rw [Memory.cell_copyFromUser_self _ _ _ copies, reserved.sizeOf nonnull,
    reserved.contents nonnull index, if_neg (by omega), if_neg (by omega)]

/-- The pending bytes followed by those of the call. -/
def joined (sign : CharSign) (state : DriverState) (buf : List UInt8) : List Cell :=
  state.pending sign ++ buf.map some

@[simp] theorem length_joined (sign : CharSign) (state : DriverState) (buf : List UInt8) :
    (state.joined sign buf).length =
      (sign.promote state.dev.cbSize).toNat + buf.length := by
  simp [joined]

/-- A load within the block of the call. -/
theorem load_staged {sign : CharSign} {state : DriverState} {call : WriteCall}
    {buf : List UInt8} (granted : ¬state.Starves sign call buf) (copies : call.Copies buf)
    (nonneg : 0 ≤ sign.promote state.dev.cbSize) {count : Nat}
    (inside : count ≤ state.request sign buf.length)
    (within : count ≤ (state.joined sign buf).length) :
    (state.staged sign call buf).mem.load (state.staged sign call buf).dev.cbBuffer count =
      (state.joined sign buf).take count := by
  rw [length_joined] at within
  apply List.ext_getElem?
  intro index
  by_cases below : index < count
  · rw [Memory.getElem?_load _ _ below, cell_staged granted copies (by omega),
      if_pos (by omega), List.getElem?_take_of_lt below, joined]
    by_cases old : (index : Int) < sign.promote state.dev.cbSize
    · rw [if_pos old, List.getElem?_append_left (by rw [length_pending]; omega), pending,
        Memory.getElem?_load _ _ (by omega)]
    · have within : index - (sign.promote state.dev.cbSize).toNat < buf.length := by omega
      rw [if_neg old, List.getElem?_append_right (by rw [length_pending]; omega),
        length_pending, List.getElem?_map,
        show (index - sign.promote state.dev.cbSize).toNat =
          index - (sign.promote state.dev.cbSize).toNat by omega,
        List.getElem?_eq_getElem within]
      rfl
  · rw [List.getElem?_eq_none (by simpa using below),
      List.getElem?_eq_none (by simp; omega)]

/-- Sums that stay small are requested as they are. -/
theorem request_of_lt (sign : CharSign) (state : DriverState) (count : Nat)
    (nonneg : 0 ≤ sign.promote state.dev.cbSize + count)
    (small : sign.promote state.dev.cbSize + count < 2 ^ 64) :
    (state.request sign count : Int) = sign.promote state.dev.cbSize + count :=
  toNat_toSizeT_of_lt nonneg small

/-! ## Successful calls -/

section Successful

variable {sign : CharSign} {state : DriverState} {call : WriteCall}

/-- Bytes without a newline add to the pending length. -/
theorem Succeeds.dev_unfinished (succeeds : state.Succeeds sign call)
    (missing : newline ∉ call.bytes) :
    (writeStep sign state call).dev =
      { (state.staged sign call call.bytes).dev with
        cbSize := state.dev.cbSize + .ofNat call.bytes.length } := by
  rw [succeeds.writeStep_eq, accept_of_notMem _ _ missing]
  rfl

theorem Succeeds.pending_unfinished (succeeds : state.Succeeds sign call)
    (missing : newline ∉ call.bytes) :
    (writeStep sign state call).pending sign =
      (state.staged sign call call.bytes).mem.load
        (state.staged sign call call.bytes).dev.cbBuffer
        (sign.promote (state.dev.cbSize + .ofNat call.bytes.length)).toNat := by
  rw [succeeds.writeStep_eq, accept_of_notMem _ _ missing]
  rfl

theorem WellFormed.commands_unfinished (wf : state.WellFormed)
    (succeeds : state.Succeeds sign call) (missing : newline ∉ call.bytes) :
    (writeStep sign state call).commands = state.commands := by
  rw [succeeds.writeStep_eq, accept_of_notMem _ _ missing,
    ← wf.commands_staged sign call call.bytes]
  rfl

/-- While the pending length is not out of the range of `char`, bytes without a
newline join the pending ones. -/
theorem WellFormed.contents_unfinished (wf : state.WellFormed)
    (succeeds : state.Succeeds sign call) (missing : newline ∉ call.bytes)
    (nonneg : 0 ≤ sign.promote state.dev.cbSize)
    (fits : sign.promote state.dev.cbSize + call.bytes.length ≤ sign.max) :
    (writeStep sign state call).contents sign = (state.contents sign).feed call.bytes := by
  have bound := sign.max_le
  have requested := request_of_lt sign state call.bytes.length
    (by omega) (by omega)
  have pendingBytes : (writeStep sign state call).pending sign =
      state.joined sign call.bytes := by
    rw [succeeds.pending_unfinished missing, sign.promote_add_of_le _ _ nonneg fits,
      load_staged succeeds.granted succeeds.copies nonneg (by omega)
        (by rw [length_joined]; omega),
      List.take_of_length_le (by rw [length_joined]; omega)]
  rw [contents, wf.commands_unfinished succeeds missing, pendingBytes,
    Contents.feed_of_notMem _ missing]
  rfl

/-- A newline completes a command, and what follows it is dropped. -/
theorem Succeeds.writeStep_line (succeeds : state.Succeeds sign call) {line rest : List UInt8}
    (isLine : call.bytes = line ++ newline :: rest) (missing : newline ∉ line) :
    writeStep sign state call =
      (state.staged sign call call.bytes).complete sign (line.length + 1) := by
  rw [succeeds.writeStep_eq, ← accept_line sign _ missing rest, ← isLine]

/-- After a newline nothing is pending. -/
theorem Succeeds.cbSize_line (succeeds : state.Succeeds sign call) (wf : state.WellFormed)
    {line rest : List UInt8} (isLine : call.bytes = line ++ newline :: rest)
    (missing : newline ∉ line) : (writeStep sign state call).dev.cbSize = 0 := by
  have holding := wf.staged sign call call.bytes
  rw [succeeds.writeStep_line isLine missing]
  cases full : (state.staged sign call call.bytes).dev.circBuffer.full with
  | false => rw [complete_of_open _ _ _ full]
  | true => rw [complete_of_full _ _ _ holding.ring full (staged_nonnull succeeds.granted)]

/-- The circular buffer gets an entry of the recorded size. Only with room does it
keep its block. -/
theorem Succeeds.circBuffer_line (succeeds : state.Succeeds sign call)
    (wf : state.WellFormed) {line rest : List UInt8}
    (isLine : call.bytes = line ++ newline :: rest) (missing : newline ∉ line) :
    (writeStep sign state call).dev.circBuffer =
      (state.dev.circBuffer.aesdCircularBufferAddEntry
        ⟨if state.dev.circBuffer.full then none
          else (state.staged sign call call.bytes).dev.cbBuffer,
          state.recordedSize sign (line.length + 1)⟩).2 := by
  have holding := wf.staged sign call call.bytes
  rw [succeeds.writeStep_line isLine missing]
  change _ = (state.dev.circBuffer.aesdCircularBufferAddEntry
    ⟨if (state.staged sign call call.bytes).dev.circBuffer.full then _ else _, _⟩).2
  cases full : (state.staged sign call call.bytes).dev.circBuffer.full with
  | false => rw [complete_of_open _ _ _ full]; rfl
  | true => rw [complete_of_full _ _ _ holding.ring full (staged_nonnull succeeds.granted)]; rfl

theorem Succeeds.sizes_line (succeeds : state.Succeeds sign call) (wf : state.WellFormed)
    {line rest : List UInt8} (isLine : call.bytes = line ++ newline :: rest)
    (missing : newline ∉ line) :
    (writeStep sign state call).dev.circBuffer.sizes =
      Window.push maxWriteOperations state.dev.circBuffer.sizes
        (state.recordedSize sign (line.length + 1)).toNat := by
  rw [succeeds.circBuffer_line wf isLine missing, wf.ring.sizes_addEntry]

/-- Only a command that finds room adds to the total. -/
theorem Succeeds.circTotalSize_line (succeeds : state.Succeeds sign call)
    (wf : state.WellFormed) {line rest : List UInt8}
    (isLine : call.bytes = line ++ newline :: rest) (missing : newline ∉ line) :
    (writeStep sign state call).dev.circTotalSize =
      if state.dev.circBuffer.full then state.dev.circTotalSize
      else state.dev.circTotalSize + state.recordedSize sign (line.length + 1) := by
  have holding := wf.staged sign call call.bytes
  rw [succeeds.writeStep_line isLine missing]
  change _ = if (state.staged sign call call.bytes).dev.circBuffer.full then _ else _
  cases full : (state.staged sign call call.bytes).dev.circBuffer.full with
  | false => rw [complete_of_open _ _ _ full]; rfl
  | true => rw [complete_of_full _ _ _ holding.ring full (staged_nonnull succeeds.granted)]; rfl

theorem Succeeds.pending_line (succeeds : state.Succeeds sign call) (wf : state.WellFormed)
    {line rest : List UInt8} (isLine : call.bytes = line ++ newline :: rest)
    (missing : newline ∉ line) : (writeStep sign state call).pending sign = [] := by
  apply List.eq_nil_of_length_eq_zero
  rw [length_pending, succeeds.cbSize_line wf isLine missing]
  simp

/-- With room, a newline makes the recorded bytes of the block of the call the
newest command. -/
theorem WellFormed.commands_line (wf : state.WellFormed) (succeeds : state.Succeeds sign call)
    {line rest : List UInt8} (isLine : call.bytes = line ++ newline :: rest)
    (missing : newline ∉ line) (room : state.dev.circBuffer.full = false) :
    (writeStep sign state call).commands =
      state.commands ++
        [(state.staged sign call call.bytes).mem.load
          (state.staged sign call call.bytes).dev.cbBuffer
          (state.recordedSize sign (line.length + 1)).toNat] := by
  rw [succeeds.writeStep_line isLine missing,
    (wf.staged sign call call.bytes).commands_complete_of_open sign _ room,
    wf.commands_staged sign call call.bytes]
  rfl

/-- With more bytes recorded than the block of the call has, the last byte of the
newest command is not known. -/
theorem WellFormed.getLast?_commands_line_ne (wf : state.WellFormed)
    (succeeds : state.Succeeds sign call) {line rest : List UInt8}
    (isLine : call.bytes = line ++ newline :: rest) (missing : newline ∉ line)
    (room : state.dev.circBuffer.full = false)
    (beyond : state.request sign call.bytes.length <
      (state.recordedSize sign (line.length + 1)).toNat) (command : List Cell) (byte : UInt8) :
    (writeStep sign state call).commands.getLast? ≠ some (command ++ [some byte]) := by
  intro last
  rw [wf.commands_line succeeds isLine missing room, List.getLast?_concat,
    Option.some.injEq] at last
  have lengths := congrArg List.length last
  have atEnd := congrArg (fun cells => cells[(state.recordedSize sign
    (line.length + 1)).toNat - 1]?) last
  simp only [Memory.length_load, List.length_append, List.length_singleton] at lengths
  rw [Memory.getElem?_load _ _ (by omega),
    cell_staged_outside succeeds.granted succeeds.copies (by omega), lengths,
    Nat.add_sub_cancel, List.getElem?_concat_length] at atEnd
  simp at atEnd

/-- Without room, a newline drops the oldest command and makes an unreadable one
the newest. -/
theorem WellFormed.commands_line_of_full (wf : state.WellFormed)
    (succeeds : state.Succeeds sign call) {line rest : List UInt8}
    (isLine : call.bytes = line ++ newline :: rest) (missing : newline ∉ line)
    (full : state.dev.circBuffer.full = true) :
    (writeStep sign state call).commands =
      state.commands.tail ++
        [List.replicate (state.recordedSize sign (line.length + 1)).toNat none] := by
  rw [succeeds.writeStep_line isLine missing,
    (wf.staged sign call call.bytes).commands_complete_of_full sign _ full
    (staged_nonnull succeeds.granted), wf.commands_staged sign call call.bytes]
  rfl

/-- While the length of the command is in the range of `char`, the command is the
pending bytes followed by the new ones up to the newline. -/
theorem WellFormed.contents_line (wf : state.WellFormed)
    (succeeds : state.Succeeds sign call) {line rest : List UInt8}
    (isLine : call.bytes = line ++ newline :: rest) (missing : newline ∉ line)
    (room : state.dev.circBuffer.full = false)
    (nonneg : 0 ≤ sign.promote state.dev.cbSize)
    (fits : sign.promote state.dev.cbSize + (line.length + 1 : Nat) ≤ sign.max)
    (small : sign.promote state.dev.cbSize + call.bytes.length < 2 ^ 64) :
    (writeStep sign state call).contents sign =
      (state.contents sign).feed (line ++ [newline]) := by
  have bound := sign.max_le
  have requested := request_of_lt sign state call.bytes.length (by omega) small
  have recorded := toNat_recordedSize_of_le sign state (line.length + 1) nonneg fits
  have lengths : call.bytes.length = line.length + 1 + rest.length := by
    rw [isLine, List.length_append, List.length_cons]
    omega
  have short := wf.length_commands_lt room
  have command : (state.staged sign call call.bytes).mem.load
      (state.staged sign call call.bytes).dev.cbBuffer
      (state.recordedSize sign (line.length + 1)).toNat =
        state.pending sign ++ (line ++ [newline]).map some := by
    rw [load_staged succeeds.granted succeeds.copies nonneg (by omega)
      (by rw [length_joined]; omega), joined, isLine, List.take_append,
      List.take_of_length_le (by rw [length_pending]; omega), length_pending,
      show (state.recordedSize sign (line.length + 1)).toNat -
        (sign.promote state.dev.cbSize).toNat = line.length + 1 by omega,
      ← List.map_take, List.append_cons, List.take_left' (by simp)]
  rw [contents, wf.commands_line succeeds isLine missing room, command,
    succeeds.pending_line wf isLine missing, Contents.feed_line _ missing]
  simp only [contents]
  rw [Window.push_of_lt short]

end Successful

end DriverState

end Aesd
