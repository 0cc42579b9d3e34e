import Aesd.CircularBuffer.History
import Aesd.Driver.Contents

/-!
# Reading the device

The position of a reader addresses the concatenation of the retained commands.
As long as no retained entry has lost its block, one call of `aesd_read` hands
out the next bytes of that concatenation, up to the end of the entry it is in,
and a call at the end hands out nothing and moves the position back to the
start. `reads` are successive calls, and `readUntilZero` is a client that makes
them until one returns 0.
-/

namespace Aesd

open KernelMemory MachineInt

/-- The call reaches the critical section. -/
structure ReadCall.Enters (call : ReadCall) : Prop where
  buf : call.buf = true
  privateData : call.privateData = true
  lock : call.lock = true

/-- A call on which nothing fails. -/
def ReadCall.granted (count : UInt64) : ReadCall := ⟨true, true, true, 0, count⟩

namespace DriverState

/-- The device after `aesd_read`: only the record of calls has grown. -/
theorem state_aesdRead (state : DriverState) (call : ReadCall) (fPos : Int) :
    ∃ recent, (aesdRead state call fPos).state =
      ⟨state.dev, { state.mem with calls := recent ++ state.mem.calls }⟩ := by
  unfold aesdRead
  split_ifs
  · exact ⟨[], rfl⟩
  · exact ⟨[], rfl⟩
  · exact ⟨[], rfl⟩
  · split
    · exact ⟨[], rfl⟩
    · dsimp only [Memory.copyToUser]
      split_ifs
      · exact ⟨[], rfl⟩
      all_goals exact ⟨[_], rfl⟩

/-- The number of bytes a read takes from an offset of an entry. -/
def servedCount (entry : AesdBufferEntry Address) (offset count : UInt64) : UInt64 :=
  if entry.size - offset < count then entry.size - offset else count

/-- A read takes what is left of the entry, and at most what it is asked for. -/
theorem toNat_servedCount {entry : AesdBufferEntry Address} {offset : UInt64}
    (inside : offset ≤ entry.size) (count : UInt64) :
    (servedCount entry offset count).toNat =
      min (entry.size.toNat - offset.toNat) count.toNat := by
  have rest := UInt64.toNat_sub_of_le entry.size offset inside
  unfold servedCount
  split
  next less => rw [UInt64.lt_iff_toNat_lt] at less; omega
  next more => rw [UInt64.not_lt, UInt64.le_iff_toNat_le] at more; omega

/-- A read whose position is in an entry: without a block it returns 0, and otherwise it
gets as far as the copy. -/
theorem aesdRead_of_found {state : DriverState} {call : ReadCall} (enters : call.Enters)
    {fPos : Int} {index : Nat} {offset : UInt64}
    (found : state.dev.circBuffer.aesdCircularBufferFindEntryOffsetForFpos (toSizeT fPos) =
      (some index, offset)) :
    aesdRead state call fPos =
      let entry := state.dev.circBuffer.slot index
      let served := servedCount entry offset call.count
      let copied := state.mem.copyToUser call.uncopied entry.buffptr offset.toNat served.toNat
      if entry.buffptr = none then ⟨0, [], fPos, state⟩
      else if copied.1 ≠ 0 then
        ⟨-errnoEfault, [], advancePos fPos served, ⟨state.dev, copied.2.2⟩⟩
      else
        ⟨toSigned64 served, copied.2.1, advancePos fPos served, ⟨state.dev, copied.2.2⟩⟩ := by
  unfold aesdRead
  simp only [enters.privateData, enters.buf, enters.lock, Bool.true_eq_false, if_false, found]
  rfl

/-- A read that finds no entry returns 0 and resets the position. -/
theorem aesdRead_of_not_found {state : DriverState} {call : ReadCall} (enters : call.Enters)
    {fPos : Int} {offset : UInt64}
    (missing : state.dev.circBuffer.aesdCircularBufferFindEntryOffsetForFpos (toSizeT fPos) =
      (none, offset)) : aesdRead state call fPos = ⟨0, [], 0, state⟩ := by
  unfold aesdRead
  simp only [enters.privateData, enters.buf, enters.lock, Bool.true_eq_false, if_false, missing]

/-- A read past the retained bytes finds no entry. -/
theorem aesdRead_of_end {state : DriverState} (wf : state.dev.circBuffer.WellFormed)
    (noWrap : state.dev.circBuffer.sizes.sum < 2 ^ 64) {call : ReadCall} (enters : call.Enters)
    {fPos : Int} (atEnd : state.dev.circBuffer.sizes.sum ≤ (toSizeT fPos).toNat) :
    aesdRead state call fPos = ⟨0, [], 0, state⟩ :=
  aesdRead_of_not_found enters (by
    rw [AesdCircularBuffer.find_eq_locate wf noWrap,
      (Locate.locate_eq_none_iff _ _).mpr atEnd])

/-- A read at a retained byte: the entry it is in decides. -/
theorem aesdRead_of_located {state : DriverState} (wf : state.dev.circBuffer.WellFormed)
    (noWrap : state.dev.circBuffer.sizes.sum < 2 ^ 64) {call : ReadCall} (enters : call.Enters)
    {fPos : Int} {index offset : Nat}
    (located : Locate.locate state.dev.circBuffer.sizes (toSizeT fPos).toNat =
      some (index, offset)) :
    ∃ entry served, state.dev.circBuffer.retained[index]? = some entry ∧
      offset < entry.size.toNat ∧
      served.toNat = min (entry.size.toNat - offset) call.count.toNat ∧
      aesdRead state call fPos =
        if entry.buffptr = none then ⟨0, [], fPos, state⟩
        else
          let copied := state.mem.copyToUser call.uncopied entry.buffptr offset served.toNat
          if copied.1 ≠ 0 then
            ⟨-errnoEfault, [], advancePos fPos served, ⟨state.dev, copied.2.2⟩⟩
          else
            ⟨toSigned64 served, copied.2.1, advancePos fPos served,
              ⟨state.dev, copied.2.2⟩⟩ := by
  obtain ⟨entry, retained, found, value, inside⟩ :=
    AesdCircularBuffer.find_of_locate wf noWrap located
  have slot := AesdCircularBuffer.slot_of_retained retained
  refine ⟨entry, servedCount entry (.ofNat offset) call.count, retained, inside, ?_, ?_⟩
  · rw [toNat_servedCount (UInt64.le_iff_toNat_le.mpr (by omega)), value]
  · rw [aesdRead_of_found enters found]
    simp only [slot, value]

/-! ## Devices without lost entries -/

/-- Every retained entry has its block, and positions fit in a `loff_t`. -/
structure Readable (state : DriverState) : Prop where
  ring : state.dev.circBuffer.WellFormed
  noWrap : state.dev.circBuffer.sizes.sum < 2 ^ 63
  nonnull : ∀ entry ∈ state.dev.circBuffer.retained, entry.buffptr ≠ none

theorem map_length_commands (state : DriverState) :
    state.commands.map List.length = state.dev.circBuffer.sizes := by
  simp [commands, AesdCircularBuffer.sizes, Function.comp_def]

theorem length_flatten_commands (state : DriverState) :
    state.commands.flatten.length = state.dev.circBuffer.sizes.sum := by
  rw [List.length_flatten, map_length_commands]

theorem commands_aesdRead (state : DriverState) (call : ReadCall) (fPos : Int) :
    (aesdRead state call fPos).state.commands = state.commands := by
  obtain ⟨recent, after⟩ := state.state_aesdRead call fPos
  rw [after]
  rfl

theorem WellFormed.aesdRead {state : DriverState} (wf : state.WellFormed) (call : ReadCall)
    (fPos : Int) : (aesdRead state call fPos).state.WellFormed := by
  obtain ⟨recent, after⟩ := state.state_aesdRead call fPos
  rw [after]
  exact ⟨⟨wf.ring, wf.entryValid, wf.entryApart⟩, wf.pendingValid, wf.pendingApart⟩

theorem Readable.aesdRead {state : DriverState} (readable : state.Readable) (call : ReadCall)
    (fPos : Int) : (aesdRead state call fPos).state.Readable := by
  obtain ⟨recent, after⟩ := state.state_aesdRead call fPos
  rw [after]
  exact ⟨readable.ring, readable.noWrap, readable.nonnull⟩

/-- A position in the retained bytes, or at their end, is the same as a `size_t`. -/
theorem toNat_position {state : DriverState} (noWrap : state.dev.circBuffer.sizes.sum < 2 ^ 63)
    {position : Nat} (within : position ≤ state.commands.flatten.length) :
    (toSizeT position).toNat = position := by
  have total := state.length_flatten_commands
  have value : ((toSizeT position).toNat : Int) = position :=
    toNat_toSizeT_of_lt (by omega) (by omega)
  omega

/-- At the end of the retained bytes a read returns 0. -/
theorem Readable.aesdRead_end {state : DriverState} (readable : state.Readable)
    {call : ReadCall} (enters : call.Enters) {position : Nat}
    (atEnd : state.commands.flatten.length = position) :
    Aesd.aesdRead state call position = ⟨0, [], 0, state⟩ := by
  have total := state.length_flatten_commands
  have bound := readable.noWrap
  have value := toNat_position bound atEnd.ge
  exact aesdRead_of_end readable.ring (by omega) enters (by omega)

/-- A range of the cells of a block, as far as they have been loaded. -/
theorem map_cell_eq_load (mem : Memory) (pointer : Pointer) {offset count size : Nat}
    (inside : offset + count ≤ size) :
    (List.range count).map (fun byte => mem.cell pointer (offset + byte)) =
      ((mem.load pointer size).drop offset).take count := by
  apply List.ext_getElem?
  intro byte
  by_cases below : byte < count
  · rw [List.getElem?_map, List.getElem?_range below, List.getElem?_take_of_lt below,
      List.getElem?_drop, Memory.getElem?_load _ _ (by omega)]
    rfl
  · rw [List.getElem?_eq_none (by simpa using below), List.getElem?_eq_none (by simp; omega)]

/-- The cells of the entry a position is in are where the concatenation goes on. -/
theorem served_of_located {state : DriverState} {position index offset count : Nat}
    {entry : AesdBufferEntry Address}
    (located : Locate.locate state.dev.circBuffer.sizes position = some (index, offset))
    (retained : state.dev.circBuffer.retained[index]? = some entry)
    (inside : offset + count ≤ entry.size.toNat) :
    (List.range count).map (fun byte => state.mem.cell entry.buffptr (offset + byte)) =
        (state.commands.flatten.drop position).take count ∧
      count ≤ (state.commands.flatten.drop position).length := by
  have selected : state.commands[index]? =
      some (state.mem.load entry.buffptr entry.size.toNat) := by
    simp [commands, retained]
  have rest := Locate.drop_flatten_of_locate state.commands
    (by rw [map_length_commands]; exact located) selected
  have within : count ≤
      ((state.mem.load entry.buffptr entry.size.toNat).drop offset).length := by
    rw [List.length_drop, Memory.length_load]
    omega
  rw [rest, List.take_append_of_le_length within, List.length_append]
  exact ⟨map_cell_eq_load _ _ inside, within.trans (Nat.le_add_right _ _)⟩

/-- A position that fits is advanced exactly. -/
theorem advancePos_of_lt {fPos : Int} {amount : UInt64}
    (fits : (toSizeT fPos).toNat + amount.toNat < 2 ^ 63) :
    advancePos fPos amount = ((toSizeT fPos).toNat + amount.toNat : Nat) := by
  have sum : (toSizeT fPos + amount).toNat = (toSizeT fPos).toNat + amount.toNat := by
    rw [UInt64.toNat_add]
    omega
  rw [advancePos, toSigned64_of_lt (by omega), sum]

/-- The entry a position is in, if there is one, has its block. -/
def HasBlock (state : DriverState) (fPos : Int) : Prop :=
  ∀ index ∈ (state.dev.circBuffer.aesdCircularBufferFindEntryOffsetForFpos (toSizeT fPos)).1,
    (state.dev.circBuffer.slot index).buffptr ≠ none

instance (state : DriverState) (fPos : Int) : Decidable (state.HasBlock fPos) :=
  inferInstanceAs (Decidable (∀ index ∈ Prod.fst _, _))

theorem Readable.hasBlock {state : DriverState} (readable : state.Readable) (fPos : Int) :
    state.HasBlock fPos := by
  have bound := readable.noWrap
  intro index found
  cases located : Locate.locate state.dev.circBuffer.sizes (toSizeT fPos).toNat with
  | none =>
      rw [AesdCircularBuffer.find_eq_locate readable.ring (by omega), located] at found
      cases found
  | some place =>
      obtain ⟨entry, retained, result, -⟩ :=
        AesdCircularBuffer.find_of_locate readable.ring (by omega) located
      rw [result] at found
      obtain rfl := Option.some.inj found
      rw [AesdCircularBuffer.slot_of_retained retained]
      exact readable.nonnull entry (List.mem_of_getElem? retained)

/-- Before the end of the retained bytes a read that finds a block hands out the next of
them, at least one and at most as many as asked for. -/
theorem aesdRead_next {state : DriverState} (ring : state.dev.circBuffer.WellFormed)
    (noWrap : state.dev.circBuffer.sizes.sum < 2 ^ 63) {call : ReadCall} (enters : call.Enters)
    (copies : call.uncopied = 0) (positive : 0 < call.count) {fPos : Int}
    (before : (toSizeT fPos).toNat < state.commands.flatten.length)
    (block : state.HasBlock fPos) :
    ∃ served, 0 < served ∧ served ≤ call.count.toNat ∧
      (toSizeT fPos).toNat + served ≤ state.commands.flatten.length ∧
      (Aesd.aesdRead state call fPos).retval = served ∧
      (Aesd.aesdRead state call fPos).data =
        (state.commands.flatten.drop (toSizeT fPos).toNat).take served ∧
      (Aesd.aesdRead state call fPos).fPos = ((toSizeT fPos).toNat + served : Nat) := by
  have total := state.length_flatten_commands
  obtain ⟨⟨index, offset⟩, located⟩ : ∃ found,
      Locate.locate state.dev.circBuffer.sizes (toSizeT fPos).toNat = some found := by
    refine Option.ne_none_iff_exists'.mp fun missing => ?_
    have outside := (Locate.locate_eq_none_iff _ _).mp missing
    omega
  obtain ⟨entry, served, retained, inside, servedValue, result⟩ :=
    aesdRead_of_located ring (by omega) enters located
  obtain ⟨other, same, found, -⟩ := AesdCircularBuffer.find_of_locate ring (by omega) located
  obtain rfl := Option.some.inj (retained.symm.trans same)
  have nonnull : entry.buffptr ≠ none := by
    have held := block _ (congrArg Prod.fst found)
    rwa [AesdCircularBuffer.slot_of_retained retained] at held
  have countPositive : 0 < call.count.toNat := UInt64.lt_iff_toNat_lt.mp positive
  have within : offset + served.toNat ≤ entry.size.toNat := by omega
  obtain ⟨data, whole⟩ := served_of_located located retained within
  rw [List.length_drop] at whole
  have exit : Aesd.aesdRead state call fPos =
      ⟨toSigned64 served,
        (List.range served.toNat).map fun byte => state.mem.cell entry.buffptr (offset + byte),
        advancePos fPos served,
        ⟨state.dev,
          (state.mem.copyToUser call.uncopied entry.buffptr offset served.toNat).2.2⟩⟩ := by
    rw [result, if_neg nonnull]
    simp [Memory.copyToUser, copies]
  have progress : 0 < served.toNat := by omega
  have most : served.toNat ≤ call.count.toNat := by omega
  have fits : (toSizeT fPos).toNat + served.toNat ≤ state.commands.flatten.length := by omega
  have small : (toSizeT fPos).toNat + served.toNat < 2 ^ 63 := by omega
  rw [exit, toSigned64_of_lt (Nat.lt_of_le_of_lt (Nat.le_add_left _ _) small),
    advancePos_of_lt small]
  exact ⟨served.toNat, progress, most, fits, rfl, data, rfl⟩

/-- The same from a position that is one of the retained bytes. -/
theorem Readable.aesdRead_next {state : DriverState} (readable : state.Readable)
    {call : ReadCall} (enters : call.Enters) (copies : call.uncopied = 0)
    (positive : 0 < call.count) {position : Nat}
    (before : position < state.commands.flatten.length) :
    ∃ served, 0 < served ∧ served ≤ call.count.toNat ∧
      position + served ≤ state.commands.flatten.length ∧
      (Aesd.aesdRead state call position).retval = served ∧
      (Aesd.aesdRead state call position).data =
        (state.commands.flatten.drop position).take served ∧
      (Aesd.aesdRead state call position).fPos = position + served := by
  have value := toNat_position readable.noWrap before.le
  have next := DriverState.aesdRead_next readable.ring readable.noWrap enters copies positive
    (show (toSizeT position).toNat < state.commands.flatten.length by rwa [value])
    (readable.hasBlock position)
  rw [value] at next
  exact next

/-! ## Successive reads -/

/-- The results of successive calls, each with its own count, on which nothing fails. -/
def reads (counts : Nat → UInt64) (state : DriverState) (fPos : Int) : Nat → ReadResult
  | 0 => Aesd.aesdRead state (.granted (counts 0)) fPos
  | call + 1 =>
      let before := reads counts state fPos call
      Aesd.aesdRead before.state (.granted (counts (call + 1))) before.fPos

/-- The calls after the first are successive calls from where it ended. -/
theorem reads_succ (counts : Nat → UInt64) (state : DriverState) (fPos : Int) (call : Nat) :
    reads counts state fPos (call + 1) =
      reads (fun call => counts (call + 1)) (reads counts state fPos 0).state
        (reads counts state fPos 0).fPos call := by
  induction call with
  | zero => rfl
  | succ call ih =>
      conv_lhs => rw [reads, ih]
      rfl

/-- Successive calls hand out these cells and end: the first one to return 0 leaves the
position at 0, every one before it hands out at least one byte and at most its count. -/
def HandsOut (counts : Nat → UInt64) (state : DriverState) (fPos : Int) (cells : List Cell) :
    Prop :=
  ∃ last,
    (∀ call < last, 1 ≤ (reads counts state fPos call).retval ∧
      (reads counts state fPos call).retval ≤ (counts call).toNat ∧
      (reads counts state fPos call).data.length = (reads counts state fPos call).retval) ∧
    (reads counts state fPos last).retval = 0 ∧
    (reads counts state fPos last).fPos = 0 ∧
    (List.range last).flatMap (fun call => (reads counts state fPos call).data) = cells

/-- One call that hands out bytes, and the later calls. -/
theorem HandsOut.cons {counts : Nat → UInt64} {state : DriverState} {fPos : Int}
    {cells : List Cell} (positive : 1 ≤ (reads counts state fPos 0).retval)
    (most : (reads counts state fPos 0).retval ≤ (counts 0).toNat)
    (length : (reads counts state fPos 0).data.length = (reads counts state fPos 0).retval)
    (later : HandsOut (fun call => counts (call + 1)) (reads counts state fPos 0).state
      (reads counts state fPos 0).fPos cells) :
    HandsOut counts state fPos ((reads counts state fPos 0).data ++ cells) := by
  obtain ⟨last, bounds, zero, reset, data⟩ := later
  refine ⟨last + 1, fun call before => ?_, by rwa [reads_succ], by rwa [reads_succ], ?_⟩
  · cases call with
    | zero => exact ⟨positive, most, length⟩
    | succ call =>
        rw [reads_succ]
        exact bounds call (by omega)
  · rw [List.range_succ_eq_map, List.flatMap_cons, List.flatMap_map, ← data]
    simp only [Nat.succ_eq_add_one, reads_succ counts state fPos]

/-- Whatever positive counts they ask for, successive calls hand out the retained bytes
from the start position on. -/
theorem Readable.handsOut {state : DriverState} (readable : state.Readable)
    {counts : Nat → UInt64} (positive : ∀ call, 0 < counts call) {position : Nat}
    (within : position ≤ state.commands.flatten.length) :
    HandsOut counts state position (state.commands.flatten.drop position) := by
  obtain ⟨remaining, rest⟩ : ∃ remaining,
      state.commands.flatten.length = position + remaining := Nat.exists_eq_add_of_le within
  induction remaining using Nat.strongRecOn generalizing state counts position with
  | ind remaining ih =>
      have enters : (ReadCall.granted (counts 0)).Enters := ⟨rfl, rfl, rfl⟩
      by_cases atEnd : state.commands.flatten.length = position
      · have ended : reads counts state position 0 = ⟨0, [], 0, state⟩ :=
          readable.aesdRead_end enters atEnd
        refine ⟨0, by simp, by rw [ended], by rw [ended], ?_⟩
        rw [List.drop_of_length_le atEnd.le]
        rfl
      · obtain ⟨served, progress, most, fits, retval, data, next⟩ :=
          readable.aesdRead_next enters rfl (positive 0)
            (show position < state.commands.flatten.length by omega)
        have same := state.commands_aesdRead (.granted (counts 0)) position
        have later : HandsOut (fun call => counts (call + 1))
            (reads counts state position 0).state (reads counts state position 0).fPos
            (state.commands.flatten.drop (position + served)) := by
          rw [show (reads counts state position 0).fPos = ((position + served : Nat) : Int) from
            next, ← same]
          exact ih (remaining - served) (by omega)
            (readable.aesdRead (.granted (counts 0)) position)
            (fun call => positive (call + 1)) (by rw [same]; omega) (by rw [same]; omega)
        have result : (reads counts state position 0).retval = served := retval
        have asked : served ≤ (counts 0).toNat := most
        have bytes : (reads counts state position 0).data =
            (state.commands.flatten.drop position).take served := data
        have whole := later.cons (by omega) (by omega) (by
          rw [result, bytes, List.length_take, List.length_drop]
          omega)
        rwa [bytes, ← List.drop_drop, List.take_append_drop] at whole

/-! ## Reading until the end -/

/-- A client that reads from a position on until a call returns 0: the bytes it
got, the position and the device afterwards. The counts it asks for are the
elements of `counts`; the fuel bounds the number of calls. -/
def readUntilZero (counts : Nat → UInt64) :
    Nat → DriverState → Int → Option (List Cell × Int × DriverState)
  | 0, _, _ => none
  | fuel + 1, state, fPos =>
      let result := Aesd.aesdRead state (.granted (counts 0)) fPos
      if result.retval = 0 then some ([], result.fPos, result.state)
      else
        (readUntilZero (fun call => counts (call + 1)) fuel result.state result.fPos).map
          fun (data, rest) => (result.data ++ data, rest)

/-- More fuel does not change what a client gets. -/
theorem readUntilZero_of_le {counts : Nat → UInt64} {fuel more : Nat} {state : DriverState}
    {fPos : Int} {result : List Cell × Int × DriverState} (le : fuel ≤ more)
    (ended : readUntilZero counts fuel state fPos = some result) :
    readUntilZero counts more state fPos = some result := by
  induction fuel generalizing more counts state fPos result with
  | zero => simp [readUntilZero] at ended
  | succ fuel ih =>
      cases more with
      | zero => omega
      | succ more =>
          rw [readUntilZero] at ended ⊢
          dsimp only at ended ⊢
          split at ended
          next zero => rw [if_pos zero, ended]
          next nonzero =>
            obtain ⟨rest, recursive, rfl⟩ := Option.map_eq_some_iff.mp ended
            rw [if_neg nonzero, ih (Nat.le_of_succ_le_succ le) recursive, Option.map_some]

/-- A client that reads until a call returns 0 gets what the successive calls hand out. -/
theorem HandsOut.readUntilZero {counts : Nat → UInt64} {state : DriverState} {fPos : Int}
    {cells : List Cell} (handsOut : HandsOut counts state fPos cells) :
    ∃ fuel final, DriverState.readUntilZero counts fuel state fPos = some (cells, 0, final) := by
  obtain ⟨last, bounds, zero, reset, data⟩ := handsOut
  induction last generalizing counts state fPos cells with
  | zero =>
      refine ⟨1, (reads counts state fPos 0).state, ?_⟩
      rw [← data, ← reset, DriverState.readUntilZero]
      exact if_pos zero
  | succ last ih =>
      have first : (reads counts state fPos 0).retval ≠ 0 := by
        have positive := (bounds 0 (Nat.succ_pos last)).1
        omega
      have others := fun call before => bounds (call + 1) (Nat.succ_lt_succ before)
      simp only [reads_succ counts state fPos] at zero reset others
      obtain ⟨fuel, final, later⟩ := ih others zero reset rfl
      refine ⟨fuel + 1, final, ?_⟩
      rw [List.range_succ_eq_map, List.flatMap_cons, List.flatMap_map] at data
      simp only [Nat.succ_eq_add_one, reads_succ counts state fPos] at data
      rw [DriverState.readUntilZero]
      change (if (reads counts state fPos 0).retval = 0 then _ else
        (DriverState.readUntilZero _ fuel (reads counts state fPos 0).state
          (reads counts state fPos 0).fPos).map _) = _
      rw [if_neg first, later, ← data]
      rfl

/-- Whatever positive counts it asks for, the client gets the retained bytes from
its position on. -/
theorem Readable.readUntilZero {state : DriverState} (readable : state.Readable)
    {counts : Nat → UInt64} (positive : ∀ call, 0 < counts call) {position : Nat}
    (within : position ≤ state.commands.flatten.length) :
    ∃ fuel last, DriverState.readUntilZero counts fuel state position =
      some (state.commands.flatten.drop position, 0, last) :=
  (readable.handsOut positive within).readUntilZero

end DriverState

/-- Reading is independent of read sizes. On a device whose buffer was built by additions
of entries with blocks, and for every start position within the retained bytes,
successive reads with any positive counts hand out the bytes of the last ten entries from
that position to the end. A byte past the end of its block is an unknown one. -/
theorem handsOut_ofEntries (entries : List (AesdBufferEntry Address)) (state : DriverState)
    (built : state.dev.circBuffer = AesdCircularBuffer.ofEntries entries)
    (nonnull : ∀ entry ∈ entries, entry.buffptr ≠ none)
    (noWrap : (AesdCircularBuffer.entrySizes (entries.rtake maxWriteOperations)).sum < 2 ^ 63)
    (position : Nat)
    (within : position ≤
      (AesdCircularBuffer.entrySizes (entries.rtake maxWriteOperations)).sum)
    (counts : Nat → UInt64) (positive : ∀ call, 0 < counts call) :
    state.HandsOut counts position
      (((entries.rtake maxWriteOperations).map fun entry =>
        state.mem.load entry.buffptr entry.size.toNat).flatten.drop position) := by
  have retained : state.dev.circBuffer.retained = entries.rtake maxWriteOperations := by
    rw [built, AesdCircularBuffer.retained_ofEntries]
  have readable : state.Readable := {
    ring := built ▸ AesdCircularBuffer.wellFormed_ofEntries entries
    noWrap := by rwa [AesdCircularBuffer.sizes, retained]
    nonnull := by
      rw [retained]
      exact fun entry member => nonnull entry (List.mem_of_mem_drop member) }
  have contents : state.commands = (entries.rtake maxWriteOperations).map fun entry =>
      state.mem.load entry.buffptr entry.size.toNat := by
    rw [DriverState.commands, retained]
  have total := state.length_flatten_commands
  rw [AesdCircularBuffer.sizes, retained] at total
  rw [← contents]
  exact readable.handsOut positive (total ▸ within)

/-- Three entries, one of them without bytes, read from the second byte on two bytes at a
time. -/
theorem handsOut_three_entries :
    DriverState.HandsOut (fun _ => 2)
      ⟨⟨AesdCircularBuffer.ofEntries
          [⟨some (.block 0), 3⟩, ⟨some .zeroSize, 0⟩, ⟨some (.block 1), 2⟩], none, 0, 5⟩,
        (Memory.empty.put 0 ⟨3, fun _ => some 97⟩).put 1 ⟨2, fun _ => some 98⟩⟩
      1 [some 97, some 97, some 98, some 98] :=
  handsOut_ofEntries [⟨some (.block 0), 3⟩, ⟨some .zeroSize, 0⟩, ⟨some (.block 1), 2⟩]
    ⟨⟨AesdCircularBuffer.ofEntries
        [⟨some (.block 0), 3⟩, ⟨some .zeroSize, 0⟩, ⟨some (.block 1), 2⟩], none, 0, 5⟩,
      (Memory.empty.put 0 ⟨3, fun _ => some 97⟩).put 1 ⟨2, fun _ => some 98⟩⟩
    rfl (by decide) (by decide) 1 (by decide) (fun _ => 2) (fun _ => by decide)

end Aesd
