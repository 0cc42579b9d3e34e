import Aesd.Driver.Lengths

/-!
# What a reader gets

`Log` is the unbounded history of a stream of bytes: all commands it has
completed, and the bytes of the unfinished one. The abstract device of
`Contents` holds the last ten commands of a log (`image_feed`). A reader of a
fresh device gets those commands, for as long as the driver has evicted none and
has counted each, also the unfinished one, in the range of `char`. Past that range
a copy from the user leaves its block and writes over whatever is in front of it.
-/

namespace Aesd

open KernelMemory MachineInt

/-- The commands of a stream, oldest first, and the bytes since the last
newline. -/
structure Log where
  completed : List (List UInt8)
  unfinished : List UInt8
  deriving DecidableEq

namespace Log

def empty : Log := ⟨[], []⟩

/-- One more byte. -/
def put (log : Log) (byte : UInt8) : Log :=
  if byte = newline then ⟨log.completed ++ [log.unfinished ++ [byte]], []⟩
  else ⟨log.completed, log.unfinished ++ [byte]⟩

/-- A stream of bytes. -/
def feed (log : Log) (bytes : List UInt8) : Log := Runs.run put log bytes

@[simp] theorem feed_nil (log : Log) : log.feed [] = log := rfl

theorem feed_append (log : Log) (first second : List UInt8) :
    log.feed (first ++ second) = (log.feed first).feed second :=
  Runs.run_append put log first second

theorem feed_of_notMem (log : Log) {bytes : List UInt8} (missing : newline ∉ bytes) :
    log.feed bytes = ⟨log.completed, log.unfinished ++ bytes⟩ := by
  induction bytes generalizing log with
  | nil => simp
  | cons byte bytes ih =>
      obtain ⟨notFirst, notRest⟩ : newline ≠ byte ∧ newline ∉ bytes := by simpa using missing
      have step : log.put byte = ⟨log.completed, log.unfinished ++ [byte]⟩ :=
        if_neg notFirst.symm
      rw [feed, Runs.run_cons, ← feed, step, ih _ notRest]
      simp

theorem feed_line (log : Log) {line : List UInt8} (missing : newline ∉ line) :
    log.feed (line ++ [newline]) =
      ⟨log.completed ++ [log.unfinished ++ (line ++ [newline])], []⟩ := by
  rw [feed_append, feed_of_notMem _ missing]
  simp [feed, put]

/-- A stream only adds commands. -/
theorem completed_prefix_feed (log : Log) (bytes : List UInt8) :
    log.completed <+: (log.feed bytes).completed := by
  refine Runs.invariant_always (fun later : Log => log.completed <+: later.completed)
    (fun later byte isPrefix => ?_) bytes List.prefix_rfl
  unfold put
  split
  · exact isPrefix.trans (List.prefix_append ..)
  · exact isPrefix

/-- What the abstract device holds of a log. -/
def image (log : Log) : Contents :=
  ⟨(log.completed.rtake maxWriteOperations).map (List.map some), log.unfinished.map some⟩

/-- The abstract device keeps the last ten commands of the stream. -/
theorem image_feed (log : Log) (bytes : List UInt8) :
    (log.feed bytes).image = log.image.feed bytes := by
  induction bytes generalizing log with
  | nil => rfl
  | cons byte bytes ih =>
      have step : (log.put byte).image = log.image.put byte := by
        unfold put Contents.put image
        split
        · simp [Window.rtake_map, Window.push_rtake]
        · simp
      rw [feed, Runs.run_cons, ← feed, ih, step]
      rfl

/-- Every completed command is in the range of `char`. -/
def InRange (sign : CharSign) (log : Log) : Prop :=
  ∀ command ∈ log.completed, command.length ≤ sign.max

instance (sign : CharSign) (log : Log) : Decidable (log.InRange sign) :=
  inferInstanceAs (Decidable (∀ command ∈ log.completed, command.length ≤ sign.max))

/-- The unfinished command is in the range of `char`, too. -/
def Within (sign : CharSign) (log : Log) : Prop :=
  log.InRange sign ∧ log.unfinished.length ≤ sign.max

instance (sign : CharSign) (log : Log) : Decidable (log.Within sign) :=
  inferInstanceAs (Decidable (_ ∧ _))

theorem Within.of_put {sign : CharSign} {log : Log} {byte : UInt8}
    (within : (log.put byte).Within sign) : log.Within sign := by
  obtain ⟨inRange, short⟩ := within
  unfold put at inRange short
  by_cases isNewline : byte = newline
  case pos =>
    rw [if_pos isNewline] at inRange
    have last := inRange (log.unfinished ++ [byte])
      (List.mem_append_right _ List.mem_cons_self)
    rw [List.length_append, List.length_singleton] at last
    exact ⟨fun command member => inRange command (List.mem_append_left _ member), by omega⟩
  case neg =>
    rw [if_neg isNewline] at inRange short
    rw [List.length_append, List.length_singleton] at short
    exact ⟨inRange, by omega⟩

theorem Within.of_feed {sign : CharSign} {log : Log} {bytes : List UInt8}
    (within : (log.feed bytes).Within sign) : log.Within sign := by
  induction bytes generalizing log with
  | nil => exact within
  | cons byte bytes ih => exact Within.of_put (ih within)

/-- Bytes without a newline that stay in range leave the unfinished command in range. -/
theorem Within.of_unfinished {sign : CharSign} {log : Log} {bytes : List UInt8}
    (within : (log.feed bytes).Within sign) (missing : newline ∉ bytes) :
    log.unfinished.length + bytes.length ≤ sign.max := by
  have short := within.2
  rwa [log.feed_of_notMem missing, List.length_append] at short

/-- So does a line that ends it. -/
theorem Within.of_line {sign : CharSign} {log : Log} {line : List UInt8}
    (within : (log.feed (line ++ [newline])).Within sign) (missing : newline ∉ line) :
    log.unfinished.length + (line.length + 1) ≤ sign.max := by
  have inRange := within.1
  rw [log.feed_line missing] at inRange
  have short := inRange _ (List.mem_append_right _ List.mem_cons_self)
  rwa [List.length_append, List.length_append, List.length_singleton] at short

/-- At most ten commands, and all of them, also the unfinished one, in the range of `char`. -/
def Fits (sign : CharSign) (log : Log) : Prop :=
  log.completed.length ≤ maxWriteOperations ∧ log.Within sign

instance (sign : CharSign) (log : Log) : Decidable (log.Fits sign) :=
  inferInstanceAs (Decidable (_ ∧ _))

theorem Fits.of_feed {sign : CharSign} {log : Log} {bytes : List UInt8}
    (fits : (log.feed bytes).Fits sign) : log.Fits sign :=
  ⟨(log.completed_prefix_feed bytes).length_le.trans fits.1, fits.2.of_feed⟩

end Log

namespace DriverState

/-- What holds over a run of successful calls whose newlines are last bytes: it is kept by a call
without a newline and by a call that ends a command. -/
theorem run_lines {sign : CharSign} (property : DriverState → Log → Prop)
    (unfinished : ∀ state log call, property state log → state.Succeeds sign call →
      newline ∉ call.bytes → property (writeStep sign state call) (log.feed call.bytes))
    (line : ∀ state log call line, property state log → state.Succeeds sign call →
      call.bytes = line ++ [newline] → newline ∉ line →
        property (writeStep sign state call) (log.feed call.bytes))
    {calls : List WriteCall} {state : DriverState} {log : Log} (initially : property state log)
    (successful : Runs.Along (Aesd.writeStep sign)
      (fun state call => (aesdWrite sign state call).1 = call.bytes.length) state calls)
    (lines : ∀ call ∈ calls, newline ∉ call.bytes.dropLast) :
    property (Runs.run (Aesd.writeStep sign) state calls)
      (log.feed (calls.flatMap WriteCall.bytes)) := by
  induction calls generalizing state log with
  | nil => exact initially
  | cons call calls ih =>
      have succeeds := (retval_eq_iff sign state call).mp successful.1
      have early := lines call List.mem_cons_self
      rw [List.flatMap_cons, Log.feed_append]
      apply ih _ successful.2
      · intro other member
        exact lines other (List.mem_cons_of_mem _ member)
      · rcases Lines.unfinished_or_line early with missing | ⟨start, isLine, missing⟩
        · exact unfinished state log call initially succeeds missing
        · exact line state log call start initially succeeds isLine missing

/-- The recorded lengths are true, and the pending one is that of the unfinished command. -/
def Counts (sign : CharSign) (state : DriverState) (log : Log) : Prop :=
  ∃ tally : Tally, (Tallied.mk state tally).Invariant sign ∧
    tally.pending = log.unfinished.length

namespace Counts

variable {sign : CharSign} {state : DriverState} {log : Log} {call : WriteCall}

theorem unfinished (counts : state.Counts sign log) (succeeds : state.Succeeds sign call)
    (missing : newline ∉ call.bytes) (within : (log.feed call.bytes).Within sign) :
    (writeStep sign state call).Counts sign (log.feed call.bytes) := by
  obtain ⟨tally, invariant, pending⟩ := counts
  have bound := sign.max_le
  have short := within.of_unfinished missing
  have kept := keptLength_of_notMem missing
  refine ⟨_, invariant.unfinished succeeds missing ?_ ?_, ?_⟩
  · dsimp only
    omega
  · unfold maxRwCount
    omega
  · rw [Tally.write, if_neg missing, log.feed_of_notMem missing, List.length_append]
    dsimp only
    omega

theorem line (counts : state.Counts sign log) (succeeds : state.Succeeds sign call)
    {line : List UInt8} (isLine : call.bytes = line ++ [newline]) (missing : newline ∉ line)
    (within : (log.feed call.bytes).Within sign) :
    (writeStep sign state call).Counts sign (log.feed call.bytes) := by
  obtain ⟨tally, invariant, pending⟩ := counts
  have bound := sign.max_le
  have short := (isLine ▸ within).of_line missing
  have kept : keptLength call.bytes = line.length + 1 := by
    rw [isLine, keptLength_line missing]
  have length : call.bytes.length = line.length + 1 := by
    rw [isLine, List.length_append, List.length_singleton]
  refine ⟨_, invariant.line succeeds isLine missing ?_ ?_, ?_⟩
  · dsimp only
    omega
  · unfold maxRwCount
    omega
  · rw [Tally.write, if_pos (by simp [isLine]), isLine, log.feed_line missing]
    rfl

end Counts

/-- While all commands are in the range of `char`, every copy from the user goes behind the pending
bytes of its own block. -/
theorem copiesInBounds_run {sign : CharSign} {calls : List WriteCall}
    (successful : Runs.Along (Aesd.writeStep sign)
      (fun state call => (aesdWrite sign state call).1 = call.bytes.length)
      aesdInitModule calls)
    (lines : ∀ call ∈ calls, newline ∉ call.bytes.dropLast)
    (within : (Log.empty.feed (calls.flatMap WriteCall.bytes)).Within sign) :
    (Runs.run (Aesd.writeStep sign) aesdInitModule calls).CopiesInBounds := by
  have initially : Log.empty.Within sign → aesdInitModule.Counts sign Log.empty :=
    fun _ => ⟨_, Tallied.Invariant.init sign, rfl⟩
  obtain ⟨tally, invariant, -⟩ := run_lines
    (fun state log => log.Within sign → state.Counts sign log)
    (fun _ _ _ earlier succeeds missing within =>
      (earlier within.of_feed).unfinished succeeds missing within)
    (fun _ _ _ _ earlier succeeds isLine missing within =>
      (earlier within.of_feed).line succeeds isLine missing within)
    initially successful lines within
  exact invariant.copies

/-- The device holds what the stream of the log has put into it, as long as the
log fits. -/
structure Follows (sign : CharSign) (state : DriverState) (log : Log) : Prop where
  wellFormed : state.WellFormed
  commands : log.Fits sign → state.commands = log.image.commands
  nonnull : log.Fits sign → ∀ entry ∈ state.dev.circBuffer.retained, entry.buffptr ≠ none
  pending : log.Fits sign → sign.promote state.dev.cbSize = log.unfinished.length ∧
    state.pending sign = log.image.pending

theorem follows_init (sign : CharSign) : aesdInitModule.Follows sign .empty where
  wellFormed := wellFormed_init
  commands _ := by simp [commands, aesdInitModule, Log.image, Log.empty, List.rtake]
  nonnull _ := by simp [aesdInitModule]
  pending _ := by simp [DriverState.pending, aesdInitModule, Log.image, Log.empty,
    Memory.load]

namespace Follows

variable {sign : CharSign} {state : DriverState} {log : Log} {call : WriteCall}

/-- A call without a newline. -/
theorem unfinished (follows : state.Follows sign log) (succeeds : state.Succeeds sign call)
    (missing : newline ∉ call.bytes) :
    (writeStep sign state call).Follows sign (log.feed call.bytes) := by
  have image := log.image_feed call.bytes
  have earlier := fun fits : (log.feed call.bytes).Fits sign => fits.of_feed
  rw [Log.feed_of_notMem _ missing] at image earlier ⊢
  rw [Contents.feed_of_notMem _ missing] at image
  refine ⟨wellFormed_writeStep sign state call follows.wellFormed, fun fits => ?_,
    fun fits => ?_, fun fits => ?_⟩
  · rw [follows.wellFormed.commands_unfinished succeeds missing,
      follows.commands (earlier fits), image]
  · rw [succeeds.dev_unfinished missing]
    exact follows.nonnull (earlier fits)
  · have short := fits.2.2
    rw [List.length_append] at short
    obtain ⟨size, bytes⟩ := follows.pending (earlier fits)
    have exact := follows.wellFormed.contents_unfinished succeeds missing (by omega)
      (by rw [size]; omega)
    rw [Contents.feed_of_notMem _ missing] at exact
    constructor
    · rw [succeeds.dev_unfinished missing]
      dsimp only
      rw [sign.promote_add_of_le _ _ (by omega) (by omega), size]
      simp
    · rw [image, ← bytes]
      exact congrArg Contents.pending exact

/-- A call that ends a command. -/
theorem line (follows : state.Follows sign log) (succeeds : state.Succeeds sign call)
    {line : List UInt8} (isLine : call.bytes = line ++ [newline]) (missing : newline ∉ line) :
    (writeStep sign state call).Follows sign (log.feed call.bytes) := by
  have wf := follows.wellFormed
  have image := log.image_feed call.bytes
  have fed : log.feed call.bytes =
      ⟨log.completed ++ [log.unfinished ++ (line ++ [newline])], []⟩ := by
    rw [isLine, log.feed_line missing]
  -- If the log still fits, the command is short and finds room.
  have known : (log.feed call.bytes).Fits sign →
      state.dev.circBuffer.full = false ∧
        (writeStep sign state call).contents sign = (log.feed call.bytes).image := by
    intro fits
    have before := fits.of_feed
    have bound := sign.max_le
    have length := (isLine ▸ fits.2).of_line missing
    have few := fits.1
    rw [fed, List.length_append, List.length_singleton] at few
    obtain ⟨size, bytes⟩ := follows.pending before
    have room : state.dev.circBuffer.full = false := by
      rw [← Bool.not_eq_true, wf.full_iff, follows.commands before]
      simp only [Log.image, List.length_map, Window.length_rtake]
      omega
    refine ⟨room, ?_⟩
    rw [wf.contents_line succeeds isLine missing room (by omega) (by omega)
      (by rw [isLine, List.length_append, List.length_singleton]; omega), ← isLine, image,
      contents, follows.commands before, bytes]
  refine ⟨wellFormed_writeStep sign state call wf, fun fits => ?_, fun fits => ?_,
    fun fits => ?_⟩
  · exact congrArg Contents.commands (known fits).2
  · have room := (known fits).1
    have short := wf.ring.length_retained_lt room
    rw [succeeds.circBuffer_line wf isLine missing, wf.ring.retained_addEntry,
      Window.push_of_lt short, room]
    intro entry member
    rcases List.mem_append.mp member with old | new
    · exact follows.nonnull fits.of_feed entry old
    · obtain rfl := List.mem_singleton.mp new
      exact staged_nonnull succeeds.granted
  · rw [succeeds.cbSize_line wf isLine missing]
    exact ⟨by simp [fed], congrArg Contents.pending (known fits).2⟩

/-- A run of successful calls whose newlines are last bytes. -/
theorem run {calls : List WriteCall} (follows : state.Follows sign log)
    (successful : Runs.Along (Aesd.writeStep sign)
      (fun state call => (aesdWrite sign state call).1 = call.bytes.length) state calls)
    (lines : ∀ call ∈ calls, newline ∉ call.bytes.dropLast) :
    (Runs.run (Aesd.writeStep sign) state calls).Follows sign
      (log.feed (calls.flatMap WriteCall.bytes)) :=
  run_lines (Follows sign) (fun _ _ _ follows succeeds => follows.unfinished succeeds)
    (fun _ _ _ _ follows succeeds => follows.line succeeds) follows successful lines

/-- A read changes nothing the log knows of. -/
theorem aesdRead (follows : state.Follows sign log) (call : ReadCall) (fPos : Int) :
    (Aesd.aesdRead state call fPos).state.Follows sign log := by
  have wf := follows.wellFormed.aesdRead call fPos
  have same := state.commands_aesdRead call fPos
  obtain ⟨recent, after⟩ := state.state_aesdRead call fPos
  rw [after] at wf same ⊢
  exact {
    wellFormed := wf
    commands := fun fits => same.trans (follows.commands fits)
    nonnull := follows.nonnull
    pending := follows.pending }

/-- While the log fits, the device retains at most ten times `CHAR_MAX` bytes. -/
theorem sum_sizes_le (follows : state.Follows sign log) (fits : log.Fits sign) :
    state.dev.circBuffer.sizes.sum ≤ maxWriteOperations * sign.max := by
  have sizes : state.dev.circBuffer.sizes = log.completed.map List.length := by
    rw [← map_length_commands, follows.commands fits, Log.image,
      Window.rtake_of_length_le fits.1]
    simp [Function.comp_def]
  have total := List.sum_le_card_nsmul (log.completed.map List.length) sign.max (by
    simpa [Log.InRange] using fits.2.1)
  rw [List.length_map, Nat.nsmul_eq_mul, ← sizes] at total
  exact total.trans (Nat.mul_le_mul_right _ fits.1)

/-- While the log fits, the device is readable. -/
theorem readable (follows : state.Follows sign log) (fits : log.Fits sign) :
    state.Readable where
  ring := follows.wellFormed.ring
  nonnull := follows.nonnull fits
  noWrap := by
    have total := follows.sum_sizes_le fits
    have most := Nat.mul_le_mul_left maxWriteOperations sign.max_le
    unfold maxWriteOperations at *
    omega

end Follows

end DriverState

/-- Delivery. After successful writes to a fresh device whose newlines are last
bytes of calls, a client that reads from the start until it gets 0, with whatever
positive counts, receives the last ten commands and nothing else, provided that at
most ten commands have been completed and each, also the unfinished one, is in the
range of `char`. Then no copy from the user has left its block, either. -/
theorem delivers_commands (sign : CharSign) (calls : List WriteCall)
    (successful : Runs.Along (writeStep sign)
      (fun state call => (aesdWrite sign state call).1 = call.bytes.length)
      aesdInitModule calls)
    (lines : ∀ call ∈ calls, newline ∉ call.bytes.dropLast)
    (fits : (Log.empty.feed (calls.flatMap WriteCall.bytes)).Fits sign)
    (counts : Nat → UInt64) (positive : ∀ call, 0 < counts call) :
    (∃ fuel last, DriverState.readUntilZero counts fuel
      (Runs.run (writeStep sign) aesdInitModule calls) 0 =
        some (((Log.empty.feed (calls.flatMap WriteCall.bytes)).completed.rtake
          maxWriteOperations).flatten.map some, 0, last)) ∧
    (Runs.run (writeStep sign) aesdInitModule calls).CopiesInBounds := by
  have follows := (DriverState.follows_init sign).run successful lines
  obtain ⟨fuel, last, result⟩ :=
    (follows.readable fits).readUntilZero positive (Nat.zero_le _)
  refine ⟨⟨fuel, last, result.trans ?_⟩,
    DriverState.copiesInBounds_run successful lines fits.2⟩
  rw [List.drop_zero, follows.commands fits, Log.image, List.map_flatten]

/-- Two lines, the first in two calls, and an unfinished one. -/
theorem delivers_two_lines :
    let calls := [WriteCall.granted [104] 0, .granted [105, newline] 1, .granted [111, newline] 2,
      .granted [119] 3]
    (∃ fuel last, DriverState.readUntilZero (fun _ => 3) fuel
      (Runs.run (writeStep .signed) aesdInitModule calls) 0 =
        some ([some 104, some 105, some newline, some 111, some newline], 0, last)) ∧
    (Runs.run (writeStep .signed) aesdInitModule calls).CopiesInBounds :=
  delivers_commands .signed
    [WriteCall.granted [104] 0, .granted [105, newline] 1, .granted [111, newline] 2,
      .granted [119] 3]
    (by decide) (by decide) (by decide) (fun _ => 3) fun _ => by decide

/-- Of eleven lines the reader gets nine, and never the newest one. -/
theorem eleventh_line_missing :
    let lines := (List.range 11).map fun n => [UInt8.ofNat (97 + n), newline]
    let calls := lines.mapIdx fun id line => WriteCall.granted line id
    Runs.Along (writeStep .signed)
      (fun state call => (aesdWrite .signed state call).1 = call.bytes.length)
      aesdInitModule calls ∧
    (∀ call ∈ calls, newline ∉ call.bytes.dropLast) ∧
    ¬∃ fuel last, DriverState.readUntilZero (fun _ => 64) fuel
      (Runs.run (writeStep .signed) aesdInitModule calls) 0 =
        some ((lines.rtake maxWriteOperations).flatten.map some, 0, last) := by
  intro lines calls
  refine ⟨by decide +kernel, by decide +kernel, ?_⟩
  rintro ⟨fuel, last, result⟩
  have got : (DriverState.readUntilZero (fun _ => 64) 10
      (Runs.run (writeStep .signed) aesdInitModule calls) 0).map (fun found => found.1) =
        some (((lines.rtake 10).take 9).flatten.map some) := by decide +kernel
  obtain ⟨found, ended, data⟩ := Option.map_eq_some_iff.mp got
  have same := (DriverState.readUntilZero_of_le (Nat.le_add_left 10 fuel) ended).symm.trans
    (DriverState.readUntilZero_of_le (Nat.le_add_right fuel 10) result)
  have lost : ((lines.rtake 10).take 9).flatten.map some =
      (lines.rtake maxWriteOperations).flatten.map some :=
    data.symm.trans (congrArg Prod.fst (Option.some.inj same))
  revert lost
  decide

end Aesd
