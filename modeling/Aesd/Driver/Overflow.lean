import Aesd.Driver.Delivery
import Aesd.Library.Parties

/-!
# Past ten commands

A full device stores each new command over the oldest one, then frees the block it has just
stored: the entry keeps its size and loses its bytes. So of a whole run the device hands out
those of the first ten commands that are among the last ten, counts the first ten for its total
size, and keeps the blocks of the first ten, whether a slot still points to them or not.
-/

namespace Aesd

open KernelMemory MachineInt Parties

namespace Log

theorem InRange.of_concat {sign : CharSign} {completed : List (List UInt8)}
    {command unfinished rest : List UInt8}
    (inRange : InRange sign ⟨completed ++ [command], rest⟩) :
    InRange sign ⟨completed, unfinished⟩ ∧ command.length ≤ sign.max :=
  ⟨fun earlier member => inRange earlier (List.mem_append_left _ member),
    inRange command (List.mem_append_right _ List.mem_cons_self)⟩

/-- Some of the commands have at most `CHAR_MAX` bytes each. -/
theorem InRange.length_flatten_le {sign : CharSign} {log : Log} (inRange : log.InRange sign)
    {commands : List (List UInt8)} (some_ : ∀ command ∈ commands, command ∈ log.completed) :
    commands.flatten.length ≤ commands.length * sign.max := by
  have total := List.sum_le_card_nsmul (commands.map List.length) sign.max (by
    intro length member
    obtain ⟨command, isCommand, rfl⟩ := List.mem_map.mp member
    exact inRange command (some_ command isCommand))
  rwa [List.length_map, Nat.nsmul_eq_mul, ← List.length_flatten] at total

/-- What is left of a command behind this number of others. -/
def residue (number : Nat) (command : List UInt8) : List Cell :=
  if number < maxWriteOperations then command.map some else List.replicate command.length none

/-- What the device retains of a log. -/
def remnant (log : Log) : List (List Cell) :=
  (log.completed.mapIdx residue).rtake maxWriteOperations

/-- The commands a reader gets: those of the first ten that are among the last ten. -/
def visible (log : Log) : List (List UInt8) :=
  (log.completed.take maxWriteOperations).drop (log.completed.length - maxWriteOperations)

/-- The commands among the last ten that a reader does not get. -/
def hidden (log : Log) : List (List UInt8) :=
  (log.completed.drop maxWriteOperations).drop (log.completed.length - 2 * maxWriteOperations)

@[simp] theorem length_residue (number : Nat) (command : List UInt8) :
    (residue number command).length = command.length := by
  unfold residue
  split
  next => rw [List.length_map]
  next => rw [List.length_replicate]

theorem length_remnant (log : Log) :
    log.remnant.length = min log.completed.length maxWriteOperations := by
  rw [remnant, Window.length_rtake, List.length_mapIdx]

theorem map_length_remnant (log : Log) :
    log.remnant.map List.length =
      (log.completed.rtake maxWriteOperations).map List.length := by
  have lengths : (log.completed.mapIdx residue).map List.length =
      log.completed.map List.length := by
    apply List.ext_getElem?
    intro number
    rw [List.getElem?_map, List.getElem?_mapIdx, List.getElem?_map, Option.map_map]
    congr 1
    funext command
    exact length_residue number command
  rw [remnant, Window.rtake_map, lengths, Window.rtake_map]

theorem length_flatten_remnant (log : Log) :
    log.remnant.flatten.length = (log.completed.rtake maxWriteOperations).flatten.length := by
  rw [List.length_flatten, List.length_flatten, map_length_remnant]

/-- A new command drops the oldest one of ten. -/
theorem remnant_concat (completed : List (List UInt8)) (command unfinished rest : List UInt8) :
    remnant ⟨completed ++ [command], rest⟩ =
      Window.push maxWriteOperations (remnant ⟨completed, unfinished⟩)
        (residue completed.length command) := by
  rw [remnant, remnant, Window.push_rtake, List.mapIdx_concat]

/-- The first ten commands keep their bytes, the others their lengths. -/
theorem mapIdx_residue (completed : List (List UInt8)) :
    completed.mapIdx residue =
      (completed.take maxWriteOperations).map (List.map some) ++
        (completed.drop maxWriteOperations).map fun command =>
          List.replicate command.length none := by
  have first : ((completed.take maxWriteOperations).map (List.map some)).length =
      min maxWriteOperations completed.length := by
    rw [List.length_map, List.length_take]
  apply List.mapIdx_eq_iff.mpr
  intro number
  by_cases inside : number < completed.length
  case neg =>
    rw [List.getElem?_eq_none (Nat.le_of_not_lt inside), Option.map_none, List.getElem?_eq_none]
    rw [List.length_append, first, List.length_map, List.length_drop]
    omega
  case pos =>
    by_cases early : number < maxWriteOperations
    case pos =>
      have same : residue number = List.map some := funext fun _ => if_pos early
      rw [List.getElem?_append_left (first ▸ lt_min early inside), List.getElem?_map,
        List.getElem?_take_of_lt early, same]
    case neg =>
      have same : residue number = fun command => List.replicate command.length none :=
        funext fun _ => if_neg early
      have whole : min maxWriteOperations completed.length = maxWriteOperations := by omega
      rw [List.getElem?_append_right (by omega), first, whole, List.getElem?_map,
        List.getElem?_drop, Nat.add_sub_of_le (Nat.le_of_not_lt early), same]

/-- The visible commands come first. -/
theorem remnant_eq (log : Log) :
    log.remnant = log.visible.map (List.map some) ++
      log.hidden.map fun command => List.replicate command.length none := by
  have total : (log.completed.mapIdx residue).length = log.completed.length :=
    List.length_mapIdx
  have beyond : log.completed.length - maxWriteOperations -
      min maxWriteOperations log.completed.length =
        log.completed.length - 2 * maxWriteOperations := by omega
  rw [remnant, List.rtake, total, mapIdx_residue, List.drop_append, List.length_map,
    List.length_take, beyond, visible, hidden]
  simp only [List.map_drop]

theorem length_visible (log : Log) :
    log.visible.length = min maxWriteOperations log.completed.length -
      (log.completed.length - maxWriteOperations) := by
  rw [visible, List.length_drop, List.length_take]

end Log

namespace DriverState

/-- The device of a log in the range of `char`, however long. An unfinished command out of that
range leaves nothing known about the pending bytes. -/
structure Remains (sign : CharSign) (state : DriverState) (log : Log) : Prop where
  wellFormed : state.WellFormed
  commands : log.InRange sign → state.commands = log.remnant
  blocks : log.InRange sign →
    state.dev.circBuffer.retained.map (fun entry => entry.buffptr.isSome) =
      (log.completed.mapIdx fun number _ => decide (number < maxWriteOperations)).rtake
        maxWriteOperations
  total : log.InRange sign → state.dev.circTotalSize.toNat =
    (log.completed.take maxWriteOperations).flatten.length
  pending : log.InRange sign → log.unfinished.length ≤ sign.max →
    sign.promote state.dev.cbSize = log.unfinished.length ∧
      state.pending sign = log.unfinished.map some

theorem remains_init (sign : CharSign) : aesdInitModule.Remains sign .empty where
  wellFormed := wellFormed_init
  commands _ := rfl
  blocks _ := rfl
  total _ := rfl
  pending _ _ := ⟨by simp [aesdInitModule, Log.empty],
    by simp [DriverState.pending, aesdInitModule, Log.empty, Memory.load]⟩

namespace Remains

variable {sign : CharSign} {state : DriverState} {log : Log} {call : WriteCall}

/-- The device is full from the tenth command on. -/
theorem full_iff (remains : state.Remains sign log) (inRange : log.InRange sign) :
    state.dev.circBuffer.full = true ↔ maxWriteOperations ≤ log.completed.length := by
  rw [remains.wellFormed.full_iff, remains.commands inRange, Log.length_remnant]
  omega

/-- A call without a newline. -/
theorem unfinished (remains : state.Remains sign log) (succeeds : state.Succeeds sign call)
    (missing : newline ∉ call.bytes) :
    (writeStep sign state call).Remains sign (log.feed call.bytes) := by
  rw [Log.feed_of_notMem _ missing]
  constructor
  case wellFormed => exact wellFormed_writeStep sign state call remains.wellFormed
  case commands =>
    intro inRange
    rw [remains.wellFormed.commands_unfinished succeeds missing, remains.commands inRange]
    rfl
  case blocks =>
    intro inRange
    rw [succeeds.dev_unfinished missing]
    exact remains.blocks inRange
  case total =>
    intro inRange
    rw [succeeds.dev_unfinished missing]
    exact remains.total inRange
  case pending =>
    intro inRange short
    rw [List.length_append] at short
    obtain ⟨size, bytes⟩ := remains.pending inRange (by omega)
    have exact := remains.wellFormed.contents_unfinished succeeds missing (by omega)
      (by rw [size]; omega)
    rw [Contents.feed_of_notMem _ missing] at exact
    constructor
    · rw [succeeds.dev_unfinished missing]
      dsimp only
      rw [sign.promote_add_of_le _ _ (by omega) (by omega), size]
      simp
    · rw [List.map_append, ← bytes]
      exact congrArg Contents.pending exact

/-- The size recorded for a command in the range of `char` is its length. -/
theorem recordedSize_eq (remains : state.Remains sign log) (inRange : log.InRange sign)
    {line : List UInt8}
    (short : (log.unfinished ++ (line ++ [newline])).length ≤ sign.max) :
    (state.recordedSize sign (line.length + 1)).toNat =
      (log.unfinished ++ (line ++ [newline])).length := by
  simp only [List.length_append, List.length_singleton] at short ⊢
  obtain ⟨size, -⟩ := remains.pending inRange (by omega)
  have value := toNat_recordedSize_of_le sign state (line.length + 1) (by omega) (by omega)
  omega

/-- A call that ends a command, on a device with room. -/
theorem commands_line_of_open (remains : state.Remains sign log) (inRange : log.InRange sign)
    (succeeds : state.Succeeds sign call) {line : List UInt8}
    (isLine : call.bytes = line ++ [newline]) (missing : newline ∉ line)
    (short : (log.unfinished ++ (line ++ [newline])).length ≤ sign.max)
    (room : state.dev.circBuffer.full = false) :
    (writeStep sign state call).commands =
      state.commands ++ [(log.unfinished ++ (line ++ [newline])).map some] := by
  have bound := sign.max_le
  have length : (log.unfinished ++ (line ++ [newline])).length =
      log.unfinished.length + line.length + 1 := by
    simp only [List.length_append, List.length_singleton]
    omega
  have count : call.bytes.length = line.length + 1 := by
    rw [isLine, List.length_append, List.length_singleton]
  obtain ⟨size, bytes⟩ := remains.pending inRange (by omega)
  have held := remains.wellFormed.contents_line succeeds isLine missing room (by omega)
    (by omega) (by omega)
  rw [Contents.feed_line _ missing] at held
  have commands := congrArg Contents.commands held
  change _ = Window.push _ state.commands (state.pending sign ++ _) at commands
  rw [bytes, ← List.map_append] at commands
  change (writeStep sign state call).commands = _ at commands
  rw [commands, Window.push_of_lt (remains.wellFormed.length_commands_lt room)]

/-- A call that ends a command. -/
theorem commands_line (remains : state.Remains sign log) (inRange : log.InRange sign)
    (succeeds : state.Succeeds sign call) {line : List UInt8}
    (isLine : call.bytes = line ++ [newline]) (missing : newline ∉ line)
    (short : (log.unfinished ++ (line ++ [newline])).length ≤ sign.max) :
    (writeStep sign state call).commands =
      Window.push maxWriteOperations state.commands
        (Log.residue log.completed.length (log.unfinished ++ (line ++ [newline]))) := by
  have fullIff := remains.full_iff inRange
  cases full : state.dev.circBuffer.full with
  | false =>
      have early : log.completed.length < maxWriteOperations := by
        by_contra late
        simpa [full] using fullIff.mpr (Nat.le_of_not_lt late)
      rw [remains.commands_line_of_open inRange succeeds isLine missing short full,
        Window.push_of_lt (remains.wellFormed.length_commands_lt full), Log.residue,
        if_pos early]
  | true =>
      have late : ¬log.completed.length < maxWriteOperations := Nat.not_lt.mpr (fullIff.mp full)
      rw [remains.wellFormed.commands_line_of_full succeeds isLine missing full,
        remains.recordedSize_eq inRange short,
        Window.push_of_eq (remains.wellFormed.full_iff.mp full) (by decide), Log.residue,
        if_neg late]

/-- The entry of a new command keeps its block exactly if the device has room. -/
theorem blocks_line (remains : state.Remains sign log) (inRange : log.InRange sign)
    (succeeds : state.Succeeds sign call) {line : List UInt8}
    (isLine : call.bytes = line ++ [newline]) (missing : newline ∉ line) :
    (writeStep sign state call).dev.circBuffer.retained.map
        (fun entry => entry.buffptr.isSome) =
      Window.push maxWriteOperations
        (state.dev.circBuffer.retained.map fun entry => entry.buffptr.isSome)
        (decide (log.completed.length < maxWriteOperations)) := by
  have nonnull := staged_nonnull succeeds.granted
  have kept : (if state.dev.circBuffer.full then none
      else (state.staged sign call call.bytes).dev.cbBuffer).isSome =
        decide (log.completed.length < maxWriteOperations) := by
    by_cases full : state.dev.circBuffer.full = true
    case pos =>
      have late := (remains.full_iff inRange).mp full
      rw [if_pos full]
      exact (decide_eq_false (Nat.not_lt.mpr late)).symm
    case neg =>
      have early := mt (remains.full_iff inRange).mpr full
      rw [if_neg full, decide_eq_true (Nat.lt_of_not_le early)]
      exact Option.isSome_iff_ne_none.mpr nonnull
  rw [succeeds.circBuffer_line remains.wellFormed isLine missing,
    remains.wellFormed.ring.retained_addEntry, Window.push, Window.rtake_map, List.map_append,
    List.map_singleton, kept]
  rfl

/-- Only the first ten commands are counted. -/
theorem total_line (remains : state.Remains sign log) (inRange : log.InRange sign)
    (succeeds : state.Succeeds sign call) {line : List UInt8}
    (isLine : call.bytes = line ++ [newline]) (missing : newline ∉ line)
    (short : (log.unfinished ++ (line ++ [newline])).length ≤ sign.max) :
    (writeStep sign state call).dev.circTotalSize.toNat =
      ((log.completed ++ [log.unfinished ++ (line ++ [newline])]).take
        maxWriteOperations).flatten.length := by
  rw [succeeds.circTotalSize_line remains.wellFormed isLine missing]
  by_cases full : state.dev.circBuffer.full = true
  case pos =>
    rw [if_pos full, remains.total inRange,
      List.take_append_of_le_length ((remains.full_iff inRange).mp full)]
  case neg =>
    have early := Nat.lt_of_not_le (mt (remains.full_iff inRange).mpr full)
    have whole := List.take_of_length_le early.le
    have counted := inRange.length_flatten_le fun _ member => member
    have recorded := remains.recordedSize_eq inRange short
    have bound := sign.max_le
    have most := Nat.mul_le_mul early.le (sign.max_le)
    have small : log.completed.flatten.length +
        (log.unfinished ++ (line ++ [newline])).length < 2 ^ 64 := by
      unfold maxWriteOperations at most
      omega
    rw [if_neg full, UInt64.toNat_add, remains.total inRange, recorded, whole,
      Nat.mod_eq_of_lt small,
      List.take_of_length_le (by rw [List.length_append, List.length_singleton]; omega),
      List.flatten_append, List.flatten_singleton, ← List.length_append]

/-- A call that ends a command. -/
theorem line (remains : state.Remains sign log) (succeeds : state.Succeeds sign call)
    {line : List UInt8} (isLine : call.bytes = line ++ [newline]) (missing : newline ∉ line) :
    (writeStep sign state call).Remains sign (log.feed call.bytes) := by
  have wf := remains.wellFormed
  rw [isLine, log.feed_line missing, ← isLine]
  have before : Log.InRange sign ⟨log.completed ++ [log.unfinished ++ call.bytes], []⟩ →
      log.InRange sign ∧ (log.unfinished ++ (line ++ [newline])).length ≤ sign.max := by
    rw [isLine]
    exact Log.InRange.of_concat
  constructor
  case wellFormed => exact wellFormed_writeStep sign state call wf
  case commands =>
    intro inRange
    obtain ⟨earlier, short⟩ := before inRange
    rw [remains.commands_line earlier succeeds isLine missing short, remains.commands earlier,
      Log.remnant_concat, isLine]
  case blocks =>
    intro inRange
    rw [remains.blocks_line (before inRange).1 succeeds isLine missing,
      remains.blocks (before inRange).1, Window.push_rtake, List.mapIdx_concat]
  case total =>
    intro inRange
    obtain ⟨earlier, short⟩ := before inRange
    rw [remains.total_line earlier succeeds isLine missing short, isLine]
  case pending =>
    intro _ _
    rw [succeeds.cbSize_line wf isLine missing, succeeds.pending_line wf isLine missing]
    exact ⟨by simp, rfl⟩

end Remains

/-! ## Reading up to an entry without a block -/

/-- Exactly this number of entries, the oldest ones, have their blocks, and positions fit in a
`loff_t`. -/
structure ReadableUpTo (state : DriverState) (shown : Nat) : Prop where
  ring : state.dev.circBuffer.WellFormed
  noWrap : state.dev.circBuffer.sizes.sum < 2 ^ 63
  blocks : ∀ index entry, state.dev.circBuffer.retained[index]? = some entry →
    (entry.buffptr ≠ none ↔ index < shown)

/-- The bytes before the first entry without a block. -/
def shownBytes (state : DriverState) (shown : Nat) : List Cell :=
  (state.commands.take shown).flatten

/-- Where a reader is that has got all it can get from a position on: in front of the first
entry without a block, or at the start again behind the last entry. -/
def stopPosition (state : DriverState) (shown position : Nat) : Nat :=
  if max position (state.shownBytes shown).length < state.commands.flatten.length then
    max position (state.shownBytes shown).length
  else 0

theorem length_shownBytes (state : DriverState) (shown : Nat) :
    (state.shownBytes shown).length = (state.dev.circBuffer.sizes.take shown).sum := by
  rw [shownBytes, List.length_flatten, List.map_take, map_length_commands]

theorem shownBytes_prefix (state : DriverState) (shown : Nat) :
    state.shownBytes shown <+: state.commands.flatten := by
  refine ⟨(state.commands.drop shown).flatten, ?_⟩
  rw [shownBytes, ← List.flatten_append, List.take_append_drop]

namespace ReadableUpTo

variable {state : DriverState} {shown : Nat}

theorem aesdRead (readable : state.ReadableUpTo shown) (call : ReadCall) (fPos : Int) :
    (Aesd.aesdRead state call fPos).state.ReadableUpTo shown := by
  obtain ⟨recent, after⟩ := state.state_aesdRead call fPos
  rw [after]
  exact ⟨readable.ring, readable.noWrap, readable.blocks⟩

/-- A position among the shown bytes is in an entry with its block. -/
theorem hasBlock (readable : state.ReadableUpTo shown) {fPos : Int}
    (before : (toSizeT fPos).toNat < (state.shownBytes shown).length) :
    state.HasBlock fPos := by
  have bound := readable.noWrap
  intro index found
  cases located : Locate.locate state.dev.circBuffer.sizes (toSizeT fPos).toNat with
  | none =>
      rw [AesdCircularBuffer.find_eq_locate readable.ring (by omega), located] at found
      cases found
  | some place =>
      obtain ⟨entry, retained, result, -⟩ :=
        AesdCircularBuffer.find_of_locate readable.ring (by omega) located
      have early : place.1 < shown := by
        have behind := Locate.sum_take_le_iff located shown
        rw [length_shownBytes] at before
        omega
      rw [result] at found
      obtain rfl := Option.some.inj found
      rw [AesdCircularBuffer.slot_of_retained retained]
      exact (readable.blocks place.1 entry retained).mpr early

/-- A read among the shown bytes stays among them. -/
theorem retval_le (readable : state.ReadableUpTo shown) {call : ReadCall} (enters : call.Enters)
    (copies : call.uncopied = 0) {fPos : Int}
    (before : (toSizeT fPos).toNat < (state.shownBytes shown).length) :
    ((toSizeT fPos).toNat : Int) + (Aesd.aesdRead state call fPos).retval ≤
      (state.shownBytes shown).length := by
  have bound := readable.noWrap
  have total := state.length_flatten_commands
  have shorter := (state.shownBytes_prefix shown).length_le
  obtain ⟨⟨index, offset⟩, located⟩ : ∃ found,
      Locate.locate state.dev.circBuffer.sizes (toSizeT fPos).toNat = some found := by
    refine Option.ne_none_iff_exists'.mp fun missing => ?_
    have outside := (Locate.locate_eq_none_iff _ _).mp missing
    omega
  obtain ⟨entry, served, retained, inside, servedValue, result⟩ :=
    aesdRead_of_located readable.ring (by omega) enters located
  obtain ⟨size, selected, -, isPosition⟩ := (Locate.locate_eq_some_iff ..).mp located
  obtain rfl : entry.size.toNat = size := by
    simpa [AesdCircularBuffer.sizes, retained] using selected
  have early : index < shown := by
    have behind := Locate.sum_take_le_iff located shown
    rw [length_shownBytes] at before
    omega
  have next := Locate.sum_take_mono state.dev.circBuffer.sizes (Nat.succ_le_of_lt early)
  rw [Locate.sum_take_succ, selected, Option.getD_some, ← length_shownBytes state shown] at next
  have nonnull := (readable.blocks index entry retained).mpr early
  rw [result, if_neg nonnull]
  simp only [Memory.copyToUser, copies, Nat.zero_min, ne_eq, not_true, if_false]
  rw [toSigned64_of_lt (by omega)]
  omega

/-- In front of an entry without a block a read returns 0 and stays where it is. -/
theorem aesdRead_stuck (readable : state.ReadableUpTo shown) {call : ReadCall}
    (enters : call.Enters) {position : Nat}
    (behind : (state.shownBytes shown).length ≤ position)
    (before : position < state.commands.flatten.length) :
    Aesd.aesdRead state call position = ⟨0, [], position, state⟩ := by
  have bound := readable.noWrap
  have total := state.length_flatten_commands
  have value := toNat_position bound before.le
  obtain ⟨⟨index, offset⟩, located⟩ : ∃ found,
      Locate.locate state.dev.circBuffer.sizes (toSizeT position).toNat = some found := by
    refine Option.ne_none_iff_exists'.mp fun missing => ?_
    have outside := (Locate.locate_eq_none_iff _ _).mp missing
    omega
  obtain ⟨entry, served, retained, -, -, result⟩ :=
    aesdRead_of_located readable.ring (by omega) enters located
  have late : ¬index < shown := by
    have isBehind := Locate.sum_take_le_iff located shown
    rw [length_shownBytes] at behind
    omega
  have null : entry.buffptr = none :=
    not_not.mp (mt (readable.blocks index entry retained).mp late)
  rw [result, if_pos null]

/-- Behind the last entry a read returns 0 and goes back to the start. -/
theorem aesdRead_end (readable : state.ReadableUpTo shown) {call : ReadCall}
    (enters : call.Enters) {position : Nat} (fits : position < 2 ^ 63)
    (atEnd : state.commands.flatten.length ≤ position) :
    Aesd.aesdRead state call position = ⟨0, [], 0, state⟩ := by
  have bound := readable.noWrap
  have total := state.length_flatten_commands
  have value : ((toSizeT position).toNat : Int) = position :=
    toNat_toSizeT_of_lt (by omega) (by omega)
  exact aesdRead_of_end readable.ring (by omega) enters (by omega)

/-- A read that hands out nothing: where the reader is afterwards. -/
theorem aesdRead_stop (readable : state.ReadableUpTo shown) {call : ReadCall}
    (enters : call.Enters) {position : Nat} (fits : position < 2 ^ 63)
    (behind : (state.shownBytes shown).length ≤ position) :
    Aesd.aesdRead state call position =
      ⟨0, [], (state.stopPosition shown position : Nat), state⟩ := by
  unfold stopPosition
  rw [max_eq_left behind]
  by_cases before : position < state.commands.flatten.length
  case pos =>
    rw [if_pos before]
    exact readable.aesdRead_stuck enters behind before
  case neg =>
    rw [if_neg before]
    exact readable.aesdRead_end enters fits (Nat.le_of_not_lt before)

/-- A read hands out the next of the shown bytes. -/
theorem aesdRead_shown (readable : state.ReadableUpTo shown) {call : ReadCall}
    (enters : call.Enters) (copies : call.uncopied = 0) (positive : 0 < call.count)
    {position : Nat} (before : position < (state.shownBytes shown).length) :
    ∃ served, 0 < served ∧ position + served ≤ (state.shownBytes shown).length ∧
      (Aesd.aesdRead state call position).retval = served ∧
      (Aesd.aesdRead state call position).data =
        ((state.shownBytes shown).drop position).take served ∧
      (Aesd.aesdRead state call position).fPos = (position + served : Nat) := by
  have small := readable.noWrap
  have total := state.length_flatten_commands
  have shorter := (state.shownBytes_prefix shown).length_le
  have value := toNat_position readable.noWrap (before.le.trans shorter)
  have among : (toSizeT position).toNat < (state.shownBytes shown).length := by
    rwa [value]
  obtain ⟨served, progress, -, -, retval, data, next⟩ :=
    DriverState.aesdRead_next readable.ring readable.noWrap enters copies positive
      (among.trans_le shorter) (readable.hasBlock among)
  have within := readable.retval_le enters copies among
  rw [retval] at within
  rw [value] at data next within
  have shownPart : (state.commands.flatten.drop position).take served =
      ((state.shownBytes shown).drop position).take served := by
    obtain ⟨hidden, whole⟩ := state.shownBytes_prefix shown
    rw [← whole, List.drop_append_of_le_length before.le,
      List.take_append_of_le_length (by rw [List.length_drop]; omega)]
  exact ⟨served, progress, by omega, retval, data.trans shownPart, next⟩

/-- From any position on a client gets the shown bytes behind it. -/
theorem readUntilZero (readable : state.ReadableUpTo shown) {counts : Nat → UInt64}
    (positive : ∀ call, 0 < counts call) {position : Nat} (fits : position < 2 ^ 63) :
    ∃ fuel last, DriverState.readUntilZero counts fuel state position =
      some ((state.shownBytes shown).drop position,
        ((state.stopPosition shown position : Nat) : Int), last) := by
  obtain ⟨remaining, rest⟩ : ∃ remaining,
      (state.shownBytes shown).length - position = remaining := ⟨_, rfl⟩
  induction remaining using Nat.strongRecOn generalizing state counts position with
  | ind remaining ih =>
      have enters : (ReadCall.granted (counts 0)).Enters := ⟨rfl, rfl, rfl⟩
      by_cases behind : (state.shownBytes shown).length ≤ position
      case pos =>
        have stopped := readable.aesdRead_stop enters fits behind
        refine ⟨1, state, ?_⟩
        rw [DriverState.readUntilZero, stopped, List.drop_of_length_le behind]
        rfl
      case neg =>
        have small := readable.noWrap
        rw [← length_flatten_commands] at small
        have shorter := (state.shownBytes_prefix shown).length_le
        obtain ⟨served, progress, within, retval, data, next⟩ :=
          readable.aesdRead_shown enters rfl (positive 0) (Nat.lt_of_not_le behind)
        have same := state.commands_aesdRead (.granted (counts 0)) position
        have sameBytes : (Aesd.aesdRead state (.granted (counts 0)) position).state.shownBytes
            shown = state.shownBytes shown := by
          rw [shownBytes, same, shownBytes]
        have sameStop : (Aesd.aesdRead state (.granted (counts 0)) position).state.stopPosition
            shown (position + served) = state.stopPosition shown position := by
          rw [stopPosition, stopPosition, same, sameBytes, max_eq_right (by omega),
            max_eq_right (by omega)]
        obtain ⟨fuel, last, later⟩ : ∃ fuel last,
            DriverState.readUntilZero (fun call => counts (call + 1)) fuel
              (Aesd.aesdRead state (.granted (counts 0)) position).state
              ((position + served : Nat) : Int) =
                some ((state.shownBytes shown).drop (position + served),
                  ((state.stopPosition shown position : Nat) : Int), last) := by
          rw [← sameBytes, ← sameStop]
          apply ih (remaining - served) (by omega)
            (readable.aesdRead (.granted (counts 0)) position)
            (fun call => positive (call + 1)) (by omega)
          rw [sameBytes]
          omega
        refine ⟨fuel + 1, last, ?_⟩
        rw [DriverState.readUntilZero]
        dsimp only
        rw [if_neg (by omega), next, later, data, Option.map_some, ← List.drop_drop,
          List.take_append_drop]

end ReadableUpTo

namespace Remains

variable {sign : CharSign} {state : DriverState} {log : Log}

theorem length_flatten_commands (remains : state.Remains sign log)
    (inRange : log.InRange sign) : state.commands.flatten.length =
      (log.completed.rtake maxWriteOperations).flatten.length := by
  rw [remains.commands inRange, log.length_flatten_remnant]

/-- The device retains at most ten times `CHAR_MAX` bytes. -/
theorem sum_sizes_lt (remains : state.Remains sign log) (inRange : log.InRange sign) :
    state.dev.circBuffer.sizes.sum < 2 ^ 63 := by
  have few : (log.completed.rtake maxWriteOperations).length ≤ maxWriteOperations := by
    rw [Window.length_rtake]
    exact min_le_right _ _
  have counted := inRange.length_flatten_le
    fun command (member : command ∈ log.completed.rtake maxWriteOperations) =>
      List.mem_of_mem_drop member
  have most := Nat.mul_le_mul few sign.max_le
  rw [← DriverState.length_flatten_commands, remains.length_flatten_commands inRange]
  unfold maxWriteOperations at most counted ⊢
  omega

/-- The visible commands are those with a block. -/
theorem readableUpTo (remains : state.Remains sign log) (inRange : log.InRange sign) :
    state.ReadableUpTo log.visible.length where
  ring := remains.wellFormed.ring
  noWrap := remains.sum_sizes_lt inRange
  blocks index entry retained := by
    have few := lt_of_selected retained
    rw [AesdCircularBuffer.length_retained, ← state.length_commands, remains.commands inRange,
      Log.length_remnant] at few
    have flags := congrArg (fun flags => flags[index]?) (remains.blocks inRange)
    have number : log.completed.length - maxWriteOperations + index < log.completed.length := by
      omega
    simp only [List.getElem?_map, retained, Option.map_some, List.rtake, List.length_mapIdx,
      List.getElem?_drop, List.getElem?_mapIdx, List.getElem?_eq_getElem number,
      Option.some.injEq] at flags
    rw [← Option.isSome_iff_ne_none, flags, decide_eq_true_iff, Log.length_visible]
    omega

theorem shownBytes_eq (remains : state.Remains sign log) (inRange : log.InRange sign) :
    state.shownBytes log.visible.length = log.visible.flatten.map some := by
  rw [shownBytes, remains.commands inRange, log.remnant_eq, List.take_left' (by simp),
    List.map_flatten]

/-- Where a reader is left. -/
theorem stopPosition_eq (remains : state.Remains sign log) (inRange : log.InRange sign)
    (position : Nat) : state.stopPosition log.visible.length position =
      if max position log.visible.flatten.length <
          (log.completed.rtake maxWriteOperations).flatten.length then
        max position log.visible.flatten.length
      else 0 := by
  rw [stopPosition, remains.shownBytes_eq inRange, List.length_map,
    remains.length_flatten_commands inRange]

end Remains

/-- The device after successful calls whose newlines are last bytes. -/
theorem remains_run {sign : CharSign} {calls : List WriteCall}
    (successful : Runs.Along (Aesd.writeStep sign)
      (fun state call => (aesdWrite sign state call).1 = call.bytes.length)
      aesdInitModule calls)
    (lines : ∀ call ∈ calls, newline ∉ call.bytes.dropLast) :
    (Runs.run (Aesd.writeStep sign) aesdInitModule calls).Remains sign
      (Log.empty.feed (calls.flatMap WriteCall.bytes)) :=
  run_lines (Remains sign) (fun _ _ _ remains succeeds => remains.unfinished succeeds)
    (fun _ _ _ _ remains succeeds => remains.line succeeds) (remains_init sign) successful lines

end DriverState

/-- Delivery for good. After successful writes to a fresh device whose newlines are last bytes of
calls and whose commands, also the unfinished one, are in the range of `char`, a client that reads
from any position on gets the bytes behind it of those of the first ten commands that are among the
last ten. It is left in front of the first command that has lost its bytes, and is sent back to the
start only behind the last command. No copy from the user has left its block. -/
theorem delivers_visible (sign : CharSign) (calls : List WriteCall)
    (successful : Runs.Along (writeStep sign)
      (fun state call => (aesdWrite sign state call).1 = call.bytes.length)
      aesdInitModule calls)
    (lines : ∀ call ∈ calls, newline ∉ call.bytes.dropLast)
    (within : (Log.empty.feed (calls.flatMap WriteCall.bytes)).Within sign)
    (counts : Nat → UInt64) (positive : ∀ call, 0 < counts call)
    (position : Nat) (fits : position < 2 ^ 63) :
    let log := Log.empty.feed (calls.flatMap WriteCall.bytes)
    let stop := max position log.visible.flatten.length
    (∃ fuel last, DriverState.readUntilZero counts fuel
      (Runs.run (writeStep sign) aesdInitModule calls) position =
        some ((log.visible.flatten.drop position).map some,
          ((if stop < (log.completed.rtake maxWriteOperations).flatten.length then stop
            else 0 : Nat) : Int), last)) ∧
    (Runs.run (writeStep sign) aesdInitModule calls).CopiesInBounds := by
  intro log stop
  have remains := DriverState.remains_run successful lines
  obtain ⟨fuel, last, result⟩ := (remains.readableUpTo within.1).readUntilZero positive fits
  rw [remains.shownBytes_eq within.1, remains.stopPosition_eq within.1, ← List.map_drop] at result
  exact ⟨⟨fuel, last, result⟩, DriverState.copiesInBounds_run successful lines within⟩

/-- Of eleven lines the reader gets the second to the tenth, and is left in front of the last. -/
theorem delivers_visible_eleven_lines :
    let calls := (List.range 11).map fun n => WriteCall.granted [UInt8.ofNat (97 + n), newline] n
    (∃ fuel last, DriverState.readUntilZero (fun _ => 64) fuel
      (Runs.run (writeStep .signed) aesdInitModule calls) (0 : Nat) =
        some (((List.range 9).flatMap fun n => [some (UInt8.ofNat (98 + n)), some newline]), 18,
          last)) ∧
    (Runs.run (writeStep .signed) aesdInitModule calls).CopiesInBounds :=
  delivers_visible .signed
    ((List.range 11).map fun n => WriteCall.granted [UInt8.ofNat (97 + n), newline] n)
    (by decide +kernel) (by decide) (by decide) (fun _ => 64) (fun _ => by decide) 0 (by decide)

/-- Seeks for good. `SEEK_END` and the last position a seek accepts are the total size of the
first ten commands ever completed, whatever the device retains. Only a `SEEK_CUR` by 0, which asks
for the position, gets any position there is. -/
theorem llseek_first_ten (sign : CharSign) (calls : List WriteCall)
    (successful : Runs.Along (writeStep sign)
      (fun state call => (aesdWrite sign state call).1 = call.bytes.length)
      aesdInitModule calls)
    (lines : ∀ call ∈ calls, newline ∉ call.bytes.dropLast)
    (within : (Log.empty.feed (calls.flatMap WriteCall.bytes)).Within sign)
    (fPos off : Int) (whence : Whence) :
    let log := Log.empty.feed (calls.flatMap WriteCall.bytes)
    let size := (log.completed.take maxWriteOperations).flatten.length
    let target := seekTarget fPos size off whence
    aesdLlseekCur (Runs.run (writeStep sign) aesdInitModule calls).dev fPos off whence =
      if whence = .cur ∧ off = 0 then (fPos, fPos)
      else if 0 ≤ target ∧ target ≤ size then (target, target)
      else (-errnoEinval, fPos) := by
  intro log size target
  have remains : (Runs.run (writeStep sign) aesdInitModule calls).Remains sign log :=
    DriverState.remains_run successful lines
  have total : (Runs.run (writeStep sign) aesdInitModule calls).dev.circTotalSize.toNat = size :=
    remains.total within.1
  have counted := within.1.length_flatten_le
    fun command (member : command ∈ log.completed.take maxWriteOperations) =>
      List.mem_of_mem_take member
  have most := Nat.mul_le_mul (List.length_take_le maxWriteOperations log.completed) sign.max_le
  have small : size < 2 ^ 63 := by
    unfold maxWriteOperations at most counted
    change (log.completed.take 10).flatten.length < 2 ^ 63
    omega
  rw [aesdLlseekCur, toSigned64_of_lt (total ▸ small), total]
  rfl

/-- Behind eleven lines of different lengths. -/
theorem llseek_first_ten_eleven_lines :
    let calls := (List.range 11).map fun n =>
      WriteCall.granted (List.replicate n 97 ++ [newline]) n
    aesdLlseekCur (Runs.run (writeStep .signed) aesdInitModule calls).dev 0 0 .fromEnd =
      (55, 55) :=
  llseek_first_ten .signed
    ((List.range 11).map fun n => WriteCall.granted (List.replicate n 97 ++ [newline]) n)
    (by decide +kernel) (by decide) (by decide) 0 0 .fromEnd

end Aesd
