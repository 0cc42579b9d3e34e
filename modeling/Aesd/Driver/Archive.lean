import Aesd.Driver.Files
import Aesd.Driver.Overflow
import Aesd.Driver.Atomicity
import Aesd.Driver.Seek

/-!
# What the device is for its users

`Archive` says what the device does in terms of what has been written to it: a log of commands,
and a position for each open file. A read hands out the next bytes of one command, as long as that
command is one of the first ten; a seek is measured by the first ten commands, and a request for a
command by the last one in each place of ten. With the signedness of `char` given, and what its
environment decides in each call, the driver is this device.
-/

namespace Aesd

open KernelMemory MachineInt Parties

/-! ## The abstract device -/

namespace Log

/-- The bytes a read at a position hands out, and where it leaves the position. -/
def readAt (log : Log) (position count : Nat) : List UInt8 × Nat :=
  match Locate.locate ((log.completed.rtake maxWriteOperations).map List.length) position with
  | none => ([], 0)
  | some (segment, offset) =>
      let number := log.completed.length - maxWriteOperations + segment
      if number < maxWriteOperations then
        let data := ((log.completed[number]?.getD []).drop offset).take count
        (data, position + data.length)
      else ([], position)

/-- The command in one of the ten places: the last one whose number has this remainder. -/
def inPlace (log : Log) (place : Nat) : List UInt8 :=
  ((log.completed.zipIdx.filter fun command => command.2 % maxWriteOperations = place).getLast?.map
    Prod.fst).getD []

/-- The total size of the commands in the places before one. -/
def placeStart (log : Log) (place : Nat) : Nat :=
  ((List.range place).map fun earlier => (log.inPlace earlier).length).sum

/-- The size of the device for a seek. -/
def seekSize (log : Log) : Nat := (log.completed.take maxWriteOperations).flatten.length

/-- A write: it fails and adds nothing, or it adds all its bytes. It needs memory for the command
it adds to. -/
def write (log : Log) (call : WriteCall) : FileResult × Log :=
  match call.buf with
  | none => (⟨-errnoEfault, []⟩, log)
  | some bytes =>
      if call.privateData = false then (⟨-errnoEfault, []⟩, log)
      else if call.lock = false then (⟨-errnoEintr, []⟩, log)
      else if call.grant = none ∧ log.unfinished.length + bytes.length ≠ 0 then
        (⟨-errnoEnomem, []⟩, log)
      else if min call.uncopied bytes.length ≠ 0 then (⟨-errnoEfault, []⟩, log)
      else (⟨bytes.length, []⟩, log.feed bytes)

/-- A read: it fails and leaves the position as it is, or it hands out the bytes there. -/
def read (log : Log) (call : ReadCall) (position : Nat) : FileResult × Nat :=
  let (data, next) := log.readAt position call.count.toNat
  if call.privateData = false ∨ call.buf = false then (⟨-errnoEfault, []⟩, position)
  else if call.lock = false then (⟨-errnoEintr, []⟩, position)
  else if min call.uncopied data.length ≠ 0 then (⟨-errnoEfault, []⟩, position)
  else (⟨data.length, data.map some⟩, next)

/-- A seek. One that only asks for the position gets it wherever it is. -/
def llseek (log : Log) (off : Int) (whence : Whence) (position : Nat) : FileResult × Nat :=
  let target := seekTarget position log.seekSize off whence
  if whence = .cur ∧ off = 0 then (⟨position, []⟩, position)
  else if 0 ≤ target ∧ target ≤ log.seekSize then (⟨target, []⟩, target.toNat)
  else (⟨-errnoEinval, []⟩, position)

/-- A request for a byte of a command. -/
def ioctl (log : Log) (call : IoctlCall) (position : Nat) : FileResult × Nat :=
  if call.cmd ≠ aesdcharIocseekto then (⟨-errnoEnotty, []⟩, position)
  else
    match call.arg with
    | none => (⟨-errnoEfault, []⟩, position)
    | some seek =>
        if maxWriteOperations ≤ seek.writeCmd.toNat then (⟨-errnoEinval, []⟩, position)
        else if call.lock = false then (⟨-errnoEintr, []⟩, position)
        else if seek.writeCmdOffset.toNat < (log.inPlace seek.writeCmd.toNat).length then
          (⟨0, []⟩, log.placeStart seek.writeCmd.toNat + seek.writeCmdOffset.toNat)
        else (⟨-errnoEinval, []⟩, position)

end Log

/-- A log and the positions of the open files. -/
structure Archive where
  log : Log
  positions : List Nat
  deriving DecidableEq

namespace Archive

def empty : Archive := ⟨.empty, []⟩

/-- A file gets another position. -/
def move (archive : Archive) (file position : Nat) : Archive :=
  { archive with positions := archive.positions.set file position }

/-- A call on an open file, which gets a result and another position. -/
def onFile (archive : Archive) (file : Nat) (call : Nat → FileResult × Nat) :
    FileResult × Archive :=
  match archive.positions[file]? with
  | none => (⟨-errnoEbadf, []⟩, archive)
  | some position => ((call position).1, archive.move file (call position).2)

/-- One call. A file that has been opened is the device's. -/
def step (archive : Archive) : FileOp → FileResult × Archive
  | .openFile => (⟨0, []⟩, { archive with positions := archive.positions ++ [0] })
  | .write file call =>
      match archive.positions[file]? with
      | none => (⟨-errnoEbadf, []⟩, archive)
      | some _ =>
          let (result, log) := archive.log.write { call with privateData := true }
          (result, { archive with log })
  | .read file call => archive.onFile file (archive.log.read { call with privateData := true })
  | .llseek file off whence => archive.onFile file (archive.log.llseek off whence)
  | .ioctl file call => archive.onFile file (archive.log.ioctl call)

/-- The device after some calls. -/
def afterAll (ops : List FileOp) : Archive :=
  Runs.run (fun archive op => (archive.step op).2) empty ops

/-- Some calls with their results. -/
def events (ops : List FileOp) : List (FileOp × FileResult) := Runs.trace step empty ops

end Archive

/-! ## The places of commands -/

namespace Log

theorem inPlace_concat (completed : List (List UInt8)) (command unfinished rest : List UInt8)
    (place : Nat) : inPlace ⟨completed ++ [command], rest⟩ place =
      if completed.length % maxWriteOperations = place then command
      else inPlace ⟨completed, unfinished⟩ place := by
  unfold inPlace
  rw [List.zipIdx_append, List.filter_append]
  by_cases here : completed.length % maxWriteOperations = place
  case pos => simp [here]
  case neg => simp [here]

theorem inPlace_mem (log : Log) {place : Nat} (nonempty : log.inPlace place ≠ []) :
    log.inPlace place ∈ log.completed := by
  unfold inPlace at nonempty ⊢
  cases last : (log.completed.zipIdx.filter fun command =>
      command.2 % maxWriteOperations = place).getLast? with
  | none => simp [last] at nonempty
  | some command =>
      have member := List.mem_of_mem_filter (List.mem_of_getLast? last)
      exact List.mem_of_getElem? (List.mem_zipIdx_iff_getElem?.mp member)

theorem InRange.length_inPlace_le {sign : CharSign} {log : Log} (inRange : log.InRange sign)
    (place : Nat) : (log.inPlace place).length ≤ sign.max := by
  by_cases empty : log.inPlace place = []
  case pos =>
    rw [empty]
    exact Nat.zero_le _
  case neg => exact inRange _ (log.inPlace_mem empty)

theorem InRange.placeStart_le {sign : CharSign} {log : Log} (inRange : log.InRange sign)
    (place : Nat) : log.placeStart place ≤ place * sign.max := by
  have total := List.sum_le_card_nsmul
    ((List.range place).map fun earlier => (log.inPlace earlier).length) sign.max (by
      intro length member
      obtain ⟨earlier, -, rfl⟩ := List.mem_map.mp member
      exact inRange.length_inPlace_le earlier)
  rwa [List.length_map, List.length_range, Nat.nsmul_eq_mul] at total

/-- The limit of every position. -/
theorem InRange.seekSize_le {sign : CharSign} {log : Log} (inRange : log.InRange sign) :
    log.seekSize ≤ maxWriteOperations * sign.max := by
  have counted := inRange.length_flatten_le
    fun command (member : command ∈ log.completed.take maxWriteOperations) =>
      List.mem_of_mem_take member
  exact counted.trans (Nat.mul_le_mul_right _ (List.length_take_le _ _))

theorem InRange.length_rtake_le {sign : CharSign} {log : Log} (inRange : log.InRange sign) :
    (log.completed.rtake maxWriteOperations).flatten.length ≤ maxWriteOperations * sign.max := by
  have counted := inRange.length_flatten_le
    fun command (member : command ∈ log.completed.rtake maxWriteOperations) =>
      List.mem_of_mem_drop member
  rw [Window.length_rtake] at counted
  exact counted.trans (Nat.mul_le_mul_right _ (min_le_right _ _))

/-- A read does not go beyond the retained commands. -/
theorem InRange.readAt_le {sign : CharSign} {log : Log} (inRange : log.InRange sign)
    {position : Nat} (small : position ≤ maxWriteOperations * sign.max) (count : Nat) :
    (log.readAt position count).2 ≤ maxWriteOperations * sign.max := by
  have most := inRange.length_rtake_le
  unfold readAt
  cases located : Locate.locate ((log.completed.rtake maxWriteOperations).map List.length)
      position with
  | none => exact Nat.zero_le _
  | some place =>
      obtain ⟨segment, offset⟩ := place
      obtain ⟨size, selected, inside, isPosition⟩ :=
        (Locate.locate_eq_some_iff _ _ _ _).mp located
      rw [List.getElem?_map, Option.map_eq_some_iff] at selected
      obtain ⟨command, retained, isSize⟩ := selected
      dsimp only
      split
      case isFalse => exact small
      case isTrue early =>
        have known : log.completed[log.completed.length - maxWriteOperations + segment]? =
            some command := by
          rwa [List.rtake, List.getElem?_drop] at retained
        have next := Locate.sum_take_succ
          ((log.completed.rtake maxWriteOperations).map List.length) segment
        have whole := (List.take_sublist (segment + 1)
          ((log.completed.rtake maxWriteOperations).map List.length)).sum_le_sum
            fun _ _ => Nat.zero_le _
        rw [List.getElem?_map, retained, Option.map_some, Option.getD_some, isSize] at next
        rw [known, Option.getD_some, List.length_take, List.length_drop]
        rw [List.length_flatten] at most
        omega

end Log

/-- A write does not shorten the log. -/
theorem Log.Within.of_write {sign : CharSign} {log : Log} {call : WriteCall}
    (within : (log.write call).2.Within sign) : log.Within sign := by
  unfold Log.write at within
  split at within
  next => exact within
  next bytes _ =>
    split_ifs at within
    case neg => exact within.of_feed
    all_goals exact within

namespace Log.InRange

variable {sign : CharSign} {log : Log} {position : Nat}

theorem read_le (inRange : log.InRange sign) (call : ReadCall)
    (small : position ≤ maxWriteOperations * sign.max) :
    (log.read call position).2 ≤ maxWriteOperations * sign.max := by
  unfold Log.read
  dsimp only
  split_ifs
  case neg => exact inRange.readAt_le small call.count.toNat
  all_goals exact small

theorem llseek_le (inRange : log.InRange sign) (off : Int) (whence : Whence)
    (small : position ≤ maxWriteOperations * sign.max) :
    (log.llseek off whence position).2 ≤ maxWriteOperations * sign.max := by
  have most := inRange.seekSize_le
  unfold Log.llseek
  dsimp only
  split_ifs with asks inside
  · exact small
  · exact (Int.toNat_le.mpr inside.2).trans most
  · exact small

theorem ioctl_le (inRange : log.InRange sign) (call : IoctlCall)
    (small : position ≤ maxWriteOperations * sign.max) :
    (log.ioctl call position).2 ≤ maxWriteOperations * sign.max := by
  unfold Log.ioctl
  split
  case isTrue => exact small
  case isFalse =>
    cases call.arg with
    | none => exact small
    | some seek =>
        dsimp only
        split_ifs with outside interrupted found
        · exact small
        · exact small
        · have start := inRange.placeStart_le seek.writeCmd.toNat
          have length := inRange.length_inPlace_le seek.writeCmd.toNat
          have whole := Nat.mul_le_mul_right sign.max (Nat.lt_of_not_le outside)
          rw [Nat.succ_mul] at whole
          dsimp only
          omega
        · exact small

end Log.InRange

/-- A request that can be copied is checked against the number of slots before the lock. -/
theorem aesdUnlockedIoctl_some (dev : AesdDev) (seek : AesdSeekto) (lock : Bool) (fPos : Int) :
    aesdUnlockedIoctl dev ⟨aesdcharIocseekto, some seek, lock⟩ fPos =
      if maxWriteOperations ≤ seek.writeCmd.toNat then (-errnoEinval, fPos)
      else if lock = false then (-errnoEintr, fPos)
      else aesdUnlockedIoctl dev ⟨aesdcharIocseekto, some seek, true⟩ fPos := by
  unfold aesdUnlockedIoctl
  rw [if_neg aesdcharIocseekto_valid, if_neg aesdcharIocseekto_valid]
  cases lock with
  | false => simp
  | true =>
      simp only [Bool.true_eq_false, if_false]
      split
      next => rfl
      next => rfl

/-- A call that is turned away before the critical section. -/
theorem aesdWrite_refused (sign : CharSign) (state : DriverState) (log : Log) {call : WriteCall}
    (outside : ¬call.Enters call.bytes) :
    ∃ retval, aesdWrite sign state call = (retval, state) ∧
      log.write call = (⟨retval, []⟩, log) := by
  unfold aesdWrite Log.write
  cases present : call.buf with
  | none => exact ⟨_, rfl, rfl⟩
  | some buf =>
      dsimp only
      by_cases opened : call.privateData = false
      case pos =>
        rw [if_pos opened, if_pos opened]
        exact ⟨_, rfl, rfl⟩
      case neg =>
        have lock : call.lock = false := by
          by_contra locked
          refine outside ⟨?_, by simpa using opened, by simpa using locked⟩
          rw [WriteCall.bytes, present, Option.getD_some]
        rw [if_neg opened, if_neg opened, if_pos lock, if_pos lock]
        exact ⟨_, rfl, rfl⟩

namespace DriverState

/-- What the environment does in the allocation of a call: it proposes a block that can be had,
or none at all, and that only while nothing is pending. -/
def Supplies (state : DriverState) (call : WriteCall) : Prop :=
  state.Grantable call.grant ∨ (call.grant = none ∧ state.dev.cbSize = 0)

instance (state : DriverState) (call : WriteCall) : Decidable (state.Supplies call) :=
  inferInstanceAs (Decidable (_ ∨ _))

theorem not_grantable_none (state : DriverState) : ¬state.Grantable none := by
  rintro ⟨id, impossible, -⟩
  cases impossible

/-- The device of a log in the range of `char`, with its slots. -/
structure Stores (sign : CharSign) (state : DriverState) (log : Log) : Prop
    extends state.Remains sign log where
  nonempty : ∀ command ∈ log.completed, command ≠ []
  inOffs : log.InRange sign →
    state.dev.circBuffer.inOffs = log.completed.length % maxWriteOperations
  places : log.InRange sign → ∀ place < maxWriteOperations,
    (state.dev.circBuffer.slot place).size.toNat = (log.inPlace place).length

theorem stores_init (sign : CharSign) : aesdInitModule.Stores sign .empty where
  toRemains := remains_init sign
  nonempty := by simp [Log.empty]
  inOffs _ := rfl
  places _ place _ := by simp [aesdInitModule, AesdBufferEntry.zero, Log.empty, Log.inPlace]

namespace Stores

variable {sign : CharSign} {state : DriverState} {log : Log} {call : WriteCall}

/-- A call without a newline. -/
theorem unfinished (stores : state.Stores sign log) (succeeds : state.Succeeds sign call)
    (missing : newline ∉ call.bytes) :
    (writeStep sign state call).Stores sign (log.feed call.bytes) := by
  have remains := stores.toRemains.unfinished succeeds missing
  have sameBuffer : (writeStep sign state call).dev.circBuffer = state.dev.circBuffer := by
    rw [succeeds.dev_unfinished missing]
    rfl
  rw [Log.feed_of_notMem _ missing] at remains ⊢
  refine ⟨remains, stores.nonempty, ?_, ?_⟩
  · rw [sameBuffer]
    exact stores.inOffs
  · rw [sameBuffer]
    exact stores.places

/-- A call that ends a command. -/
theorem line (stores : state.Stores sign log) (succeeds : state.Succeeds sign call)
    {line : List UInt8} (isLine : call.bytes = line ++ [newline]) (missing : newline ∉ line) :
    (writeStep sign state call).Stores sign (log.feed call.bytes) := by
  have remains := stores.toRemains.line succeeds isLine missing
  have buffer := succeeds.circBuffer_line stores.wellFormed isLine missing
  rw [isLine, log.feed_line missing] at remains ⊢
  constructor
  case toRemains => exact remains
  case nonempty =>
    intro command member
    rcases List.mem_append.mp member with earlier | new
    · exact stores.nonempty command earlier
    · rw [List.mem_singleton.mp new]
      simp
  case inOffs =>
    intro inRange
    have before : log.InRange sign := inRange.of_concat.1
    rw [buffer, AesdCircularBuffer.snd_addEntry, List.length_append, List.length_singleton]
    dsimp only
    rw [AesdCircularBuffer.advance_eq_mod stores.wellFormed.ring.inOffs_lt,
      stores.inOffs before, Nat.mod_add_mod]
  case places =>
    intro inRange place inside
    obtain ⟨before, short⟩ : log.InRange sign ∧ _ := inRange.of_concat
    have offs := stores.inOffs before
    rw [buffer, Log.inPlace_concat _ _ log.unfinished, ← offs]
    by_cases here : state.dev.circBuffer.inOffs = place
    case pos =>
      rw [if_pos here, ← here,
        AesdCircularBuffer.slot_addEntry_self _ _ stores.wellFormed.ring.inOffs_lt]
      exact stores.toRemains.recordedSize_eq before short
    case neg =>
      rw [if_neg here, AesdCircularBuffer.slot_addEntry_of_ne _ _ (Ne.symm here)]
      exact stores.places before place inside

/-- A call whose newline can only be its last byte. -/
theorem written (stores : state.Stores sign log) (succeeds : state.Succeeds sign call)
    (lines : newline ∉ call.bytes.dropLast) :
    (writeStep sign state call).Stores sign (log.feed call.bytes) := by
  rcases Lines.unfinished_or_line lines with missing | ⟨line, isLine, missing⟩
  · exact stores.unfinished succeeds missing
  · exact stores.line succeeds isLine missing

/-- A device that looks the same stores the same. -/
theorem congr {other : DriverState} (stores : state.Stores sign log)
    (wellFormed : other.WellFormed) (buffer : other.dev.circBuffer = state.dev.circBuffer)
    (view : other.view = state.view) : other.Stores sign log := by
  have commands : other.commands = state.commands := congrArg View.commands view
  have pending := pending_eq_of_view_eq sign view
  have total : other.dev.circTotalSize = state.dev.circTotalSize :=
    congrArg View.circTotalSize view
  have size : other.dev.cbSize = state.dev.cbSize := congrArg View.cbSize view
  exact {
    wellFormed
    commands := fun inRange => commands.trans (stores.commands inRange)
    blocks := buffer ▸ stores.blocks
    total := total ▸ stores.total
    pending := by
      rw [size, pending]
      exact stores.pending
    nonempty := stores.nonempty
    inOffs := buffer ▸ stores.inOffs
    places := buffer ▸ stores.places }

/-- While the unfinished command is in the range of `char`, its bytes are where the driver looks
for them. -/
theorem pendingHeld (stores : state.Stores sign log) (within : log.Within sign) :
    state.PendingHeld sign := by
  obtain ⟨size, bytes⟩ := stores.pending within.1 within.2
  have nonneg : 0 ≤ sign.promote state.dev.cbSize := by omega
  refine ⟨nonneg, fun missing => ?_⟩
  obtain ⟨index, member, lost⟩ := List.mem_map.mp missing
  have value := sign.promote_of_nonneg nonneg
  have below := List.mem_range.mp member
  have known := congrArg (fun cells => cells[index]?) bytes
  simp only [pending, List.getElem?_map] at known
  rw [Memory.getElem?_load _ _ (by omega), List.getElem?_eq_getElem (by omega),
    Memory.cell_eq_join_place, lost] at known
  cases known

/-- A call that fails and keeps the pending bytes. -/
theorem failed (stores : state.Stores sign log) (fails : (aesdWrite sign state call).1 < 0)
    (keeps : state.KeepsPending sign call) (bounded : call.bytes.length ≤ maxRwCount) :
    (writeStep sign state call).Stores sign log := by
  have wf := stores.wellFormed
  have next := wellFormed_writeStep sign state call wf
  unfold writeStep at next ⊢
  rcases aesdWrite_cases sign state call with ⟨-, -, same⟩ |
    ⟨buf, enters, ⟨starves, result⟩ | ⟨granted, uncopied, result⟩ | ⟨-, -, result⟩⟩
  · rw [same]
    exact stores
  · obtain rfl := enters.bytes_eq
    rw [result] at next ⊢
    exact stores.congr next rfl ((wf.view_starved call _).mpr ((keeps enters).1 starves))
  · obtain rfl := enters.bytes_eq
    obtain ⟨nonneg, held⟩ := (keeps enters).2 granted uncopied
    rw [result] at next ⊢
    exact stores.congr next rfl ((wf.view_staged granted bounded nonneg).mpr held)
  · rw [result] at fails
    exact absurd fails (Int.not_lt.mpr (Int.natCast_nonneg _))

/-- An allocation that fails, fails while nothing is pending. -/
theorem starves_iff (stores : state.Stores sign log) (within : log.Within sign)
    (supplies : state.Supplies call) (bounded : call.bytes.length ≤ maxRwCount) :
    state.Starves sign call call.bytes ↔
      call.grant = none ∧ log.unfinished.length + call.bytes.length ≠ 0 := by
  obtain ⟨size, -⟩ := stores.pending within.1 within.2
  have bound := sign.max_le
  have short := within.2
  unfold maxRwCount at bounded
  have requested : state.request sign call.bytes.length =
      log.unfinished.length + call.bytes.length := by
    have value : ((toSizeT (sign.promote state.dev.cbSize + call.bytes.length)).toNat : Int) =
        sign.promote state.dev.cbSize + call.bytes.length :=
      toNat_toSizeT_of_lt (by omega) (by omega)
    unfold request
    omega
  rw [Starves, requested]
  rcases supplies with able | ⟨refused, -⟩
  case inl =>
    apply iff_of_false
    · rintro ⟨-, unable⟩
      exact unable able
    · rintro ⟨refused, -⟩
      rw [refused] at able
      exact state.not_grantable_none able
  case inr =>
    rw [refused, and_comm]
    exact and_congr_left fun _ => iff_of_true state.not_grantable_none rfl

/-- A failed allocation loses nothing, and no copy goes outside of its block. -/
theorem keepsPending (stores : state.Stores sign log) (within : log.Within sign)
    (supplies : state.Supplies call) : state.KeepsPending sign call := by
  intro enters
  constructor
  · rintro ⟨-, unable⟩ place member
    rcases supplies with able | ⟨-, empty⟩
    · exact absurd able unable
    · simp [pendingPlaces, empty] at member
  · intro _ _
    exact stores.pendingHeld within

/-- A call of `aesd_write` is a write of the abstract device. -/
theorem write_eq (stores : state.Stores sign log) (within : log.Within sign)
    (lines : newline ∉ call.bytes.dropLast) (bounded : call.bytes.length ≤ maxRwCount)
    (supplies : state.Supplies call) :
    (⟨(aesdWrite sign state call).1, []⟩ : FileResult) = (log.write call).1 ∧
      (writeStep sign state call).Stores sign (log.write call).2 := by
  by_cases enters : call.Enters call.bytes
  case neg =>
    obtain ⟨retval, same, refused⟩ := aesdWrite_refused sign state log enters
    rw [writeStep, same, refused]
    exact ⟨rfl, stores⟩
  case pos =>
    have keeps := stores.keepsPending within supplies
    have starves := stores.starves_iff within supplies bounded
    have entered : log.write call =
        if call.grant = none ∧ log.unfinished.length + call.bytes.length ≠ 0 then
          (⟨-errnoEnomem, []⟩, log)
        else if ¬call.Copies call.bytes then (⟨-errnoEfault, []⟩, log)
        else (⟨call.bytes.length, []⟩, log.feed call.bytes) := by
      simp only [Log.write, enters.buf_eq, enters.privateData, enters.lock, Bool.true_eq_false,
        if_false]
      rfl
    rw [entered]
    rcases aesdWrite_cases sign state call with ⟨outside, -, -⟩ |
      ⟨buf, isBuf, ⟨starved, result⟩ | ⟨granted, uncopied, result⟩ | ⟨granted, copied, result⟩⟩
    case inl => exact absurd enters (outside _)
    all_goals obtain rfl := isBuf.bytes_eq
    case inr.inl =>
      have fails : (aesdWrite sign state call).1 < 0 := by
        rw [result]
        exact (by decide : -errnoEnomem < 0)
      rw [if_pos (starves.mp starved)]
      exact ⟨by rw [result], stores.failed fails keeps bounded⟩
    case inr.inr.inl =>
      have fails : (aesdWrite sign state call).1 < 0 := by
        rw [result]
        exact (by decide : -errnoEfault < 0)
      rw [if_neg (mt starves.mpr granted), if_pos uncopied]
      exact ⟨by rw [result], stores.failed fails keeps bounded⟩
    case inr.inr.inr =>
      rw [if_neg (mt starves.mpr granted), if_neg (not_not.mpr copied)]
      exact ⟨by rw [result], stores.written ⟨enters, granted, copied⟩ lines⟩

theorem sizes_eq (stores : state.Stores sign log) (inRange : log.InRange sign) :
    state.dev.circBuffer.sizes =
      (log.completed.rtake maxWriteOperations).map List.length := by
  rw [← map_length_commands, stores.commands inRange, log.map_length_remnant]

theorem aesdRead (stores : state.Stores sign log) (call : ReadCall) (fPos : Int) :
    (Aesd.aesdRead state call fPos).state.Stores sign log := by
  obtain ⟨recent, after⟩ := state.state_aesdRead call fPos
  have wf := stores.wellFormed.aesdRead call fPos
  rw [after] at wf ⊢
  exact stores.congr wf rfl rfl

/-- An entry is the command with its number, and has its block exactly if that is one of the
first ten. -/
theorem retained_eq (stores : state.Stores sign log) (inRange : log.InRange sign)
    {segment : Nat} {entry : AesdBufferEntry Address}
    (retained : state.dev.circBuffer.retained[segment]? = some entry) :
    let number := log.completed.length - maxWriteOperations + segment
    (entry.buffptr ≠ none ↔ number < maxWriteOperations) ∧
      ∃ command, log.completed[number]? = some command ∧
        state.mem.load entry.buffptr entry.size.toNat = Log.residue number command := by
  intro number
  have few := lt_of_selected retained
  rw [AesdCircularBuffer.length_retained, ← state.length_commands, stores.commands inRange,
    Log.length_remnant] at few
  have inside : number < log.completed.length := by omega
  have known := List.getElem?_eq_getElem inside
  constructor
  · rw [(stores.readableUpTo inRange).blocks segment entry retained, Log.length_visible]
    omega
  · have loaded : state.commands[segment]? =
        some (state.mem.load entry.buffptr entry.size.toNat) := by
      rw [commands, List.getElem?_map, retained, Option.map_some]
    rw [stores.commands inRange, Log.remnant, List.rtake, List.length_mapIdx,
      List.getElem?_drop, List.getElem?_mapIdx, known, Option.map_some] at loaded
    exact ⟨_, known, (Option.some.inj loaded).symm⟩

/-- A read behind the last command goes back to the start. -/
theorem aesdRead_behind (stores : state.Stores sign log) (inRange : log.InRange sign)
    {call : ReadCall} (enters : call.Enters) {position : Nat} (small : position < 2 ^ 63)
    (behind : Locate.locate ((log.completed.rtake maxWriteOperations).map List.length) position =
      none) : Aesd.aesdRead state call position = ⟨0, [], 0, state⟩ := by
  apply (stores.readableUpTo inRange).aesdRead_end enters small
  rw [← stores.sizes_eq inRange, Locate.locate_eq_none_iff] at behind
  rwa [DriverState.length_flatten_commands]

/-- The cells of a command that has kept its block. -/
theorem map_cell_eq {entry : AesdBufferEntry Address} {number : Nat} {command : List UInt8}
    (loaded : state.mem.load entry.buffptr entry.size.toNat = Log.residue number command)
    (early : number < maxWriteOperations) {offset served : Nat}
    (inside : offset + served ≤ entry.size.toNat) :
    (List.range served).map (fun byte => state.mem.cell entry.buffptr (offset + byte)) =
      ((command.drop offset).take served).map some := by
  rw [map_cell_eq_load _ _ inside, loaded, Log.residue, if_pos early, ← List.map_drop,
    ← List.map_take]

/-- A read hands out the bytes at its position, if it does not fail. -/
theorem aesdRead_eq (stores : state.Stores sign log) (inRange : log.InRange sign)
    {call : ReadCall} (enters : call.Enters) {position : Nat} (small : position < 2 ^ 63) :
    let found := log.readAt position call.count.toNat
    let result := Aesd.aesdRead state call position
    if min call.uncopied found.1.length ≠ 0 then
      result.retval = -errnoEfault ∧ result.data = []
    else
      result.retval = found.1.length ∧ result.data = found.1.map some ∧
        result.fPos = found.2 := by
  intro found result
  cases located : Locate.locate ((log.completed.rtake maxWriteOperations).map List.length)
      position with
  | none =>
      have isFound : found = ([], 0) := by
        simp only [found, Log.readAt, located]
      have isResult : result = ⟨0, [], 0, state⟩ :=
        stores.aesdRead_behind inRange enters (by omega) located
      rw [isFound, isResult]
      simp
  | some place =>
      obtain ⟨segment, offset⟩ := place
      have bound := stores.sum_sizes_lt inRange
      have retainedBound : position < 10 * sign.max := by
        have total := inRange.length_rtake_le
        rw [List.length_flatten] at total
        refine Nat.lt_of_lt_of_le ?_ total
        by_contra behind
        rw [(Locate.locate_eq_none_iff _ _).mpr (Nat.le_of_not_lt behind)] at located
        cases located
      have value : ((toSizeT position).toNat : Int) = position :=
        toNat_toSizeT_of_lt (by omega) (by omega)
      have here := located
      rw [← stores.sizes_eq inRange, ← show (toSizeT position).toNat = position by omega] at here
      obtain ⟨entry, served, retained, inside, servedValue, isResult⟩ :=
        aesdRead_of_located stores.wellFormed.ring (by omega) enters here
      obtain ⟨blocks, command, known, loaded⟩ := stores.retained_eq inRange retained
      by_cases early : log.completed.length - maxWriteOperations + segment < maxWriteOperations
      case neg =>
        have isFound : found = ([], position) := by
          simp only [found, Log.readAt, located, early, if_false]
        have null : entry.buffptr = none := not_not.mp (mt blocks.mp early)
        have stuck : result = ⟨0, [], position, state⟩ := isResult.trans (if_pos null)
        rw [isFound, stuck]
        simp
      case pos =>
        have length := congrArg List.length loaded
        rw [Memory.length_load, Log.length_residue] at length
        have short := inRange command (List.mem_of_getElem? known)
        have most := sign.max_le
        have count : ((command.drop offset).take call.count.toNat).length = served.toNat := by
          rw [List.length_take, List.length_drop]
          omega
        have isFound : found = ((command.drop offset).take call.count.toNat,
            position + served.toNat) := by
          simp only [found, Log.readAt, located, early, if_true, known, Option.getD_some, count]
        have data : (List.range served.toNat).map
            (fun byte => state.mem.cell entry.buffptr (offset + byte)) =
              ((command.drop offset).take call.count.toNat).map some := by
          rw [map_cell_eq loaded early (by omega)]
          congr 1
          apply List.take_eq_take_iff.mpr
          rw [List.length_drop]
          omega
        have exit : result =
            if min call.uncopied served.toNat ≠ 0 then
              ⟨-errnoEfault, [], advancePos position served, ⟨state.dev, _⟩⟩
            else
              ⟨toSigned64 served, (List.range served.toNat).map
                (fun byte => state.mem.cell entry.buffptr (offset + byte)),
                advancePos position served, ⟨state.dev, _⟩⟩ :=
          isResult.trans (if_neg (blocks.mpr early))
        rw [isFound, exit]
        dsimp only
        rw [count]
        by_cases fails : min call.uncopied served.toNat ≠ 0
        case pos =>
          rw [if_pos fails, if_pos fails]
          exact ⟨rfl, rfl⟩
        case neg =>
          have moved : advancePos position served =
              ((toSizeT position).toNat + served.toNat : Nat) := advancePos_of_lt (by omega)
          have retval : toSigned64 served = (served.toNat : Int) := toSigned64_of_lt (by omega)
          rw [if_neg fails, if_neg fails, retval, moved, data, Int.natCast_add, value]
          exact ⟨rfl, rfl, (Int.natCast_add _ _).symm⟩

/-- A seek is measured by the first ten commands. -/
theorem aesdLlseekCur (stores : state.Stores sign log) (inRange : log.InRange sign)
    (fPos off : Int) (whence : Whence) :
    Aesd.aesdLlseekCur state.dev fPos off whence =
      fixedSizeLlseekCur fPos off whence log.seekSize := by
  have total : state.dev.circTotalSize.toNat = log.seekSize := stores.total inRange
  have most := inRange.seekSize_le
  have bound := sign.max_le
  unfold maxWriteOperations at most
  rw [Aesd.aesdLlseekCur, toSigned64_of_lt (by omega), total]

theorem occupied (stores : state.Stores sign log) (inRange : log.InRange sign) :
    state.dev.circBuffer.Occupied where
  ring := stores.wellFormed.ring
  positive entry member := by
    have size : entry.size.toNat ∈ state.dev.circBuffer.sizes := List.mem_map_of_mem member
    rw [stores.sizes_eq inRange] at size
    obtain ⟨command, retained, isSize⟩ := List.mem_map.mp size
    rw [← isSize]
    exact List.length_pos_of_ne_nil
      (stores.nonempty command (List.mem_of_mem_drop retained))

theorem slotPrefix_eq (stores : state.Stores sign log) (inRange : log.InRange sign)
    {place : Nat} (inside : place ≤ maxWriteOperations) :
    state.dev.circBuffer.slotPrefix place = log.placeStart place := by
  unfold AesdCircularBuffer.slotPrefix Log.placeStart
  congr 1
  apply List.map_congr_left
  intro earlier before
  exact stores.places inRange earlier ((List.mem_range.mp before).trans_le inside)

/-- A request finds the byte of the last command in its place. -/
theorem aesdUnlockedIoctl (stores : state.Stores sign log) (inRange : log.InRange sign)
    {seek : AesdSeekto} (inside : seek.writeCmd.toNat < maxWriteOperations) (fPos : Int) :
    Aesd.aesdUnlockedIoctl state.dev ⟨aesdcharIocseekto, some seek, true⟩ fPos =
      if seek.writeCmdOffset.toNat < (log.inPlace seek.writeCmd.toNat).length then
        (0, ((log.placeStart seek.writeCmd.toNat + seek.writeCmdOffset.toNat : Nat) : Int))
      else (-errnoEinval, fPos) := by
  have start := inRange.placeStart_le seek.writeCmd.toNat
  have length := inRange.length_inPlace_le seek.writeCmd.toNat
  have bound := sign.max_le
  rw [aesdUnlockedIoctl_eq (stores.occupied inRange), stores.places inRange _ inside,
    stores.slotPrefix_eq inRange inside.le]
  by_cases found : seek.writeCmdOffset.toNat < (log.inPlace seek.writeCmd.toNat).length
  case pos =>
    have few := Nat.mul_le_mul inside.le bound
    have exact_ : toInt32 (log.placeStart seek.writeCmd.toNat + seek.writeCmdOffset.toNat) =
        (log.placeStart seek.writeCmd.toNat + seek.writeCmdOffset.toNat : Nat) := by
      unfold maxWriteOperations at few
      rw [toInt32_of_bounds (by omega) (by omega), Int.natCast_add]
    rw [if_pos found, if_pos found, exact_]
  case neg => rw [if_neg found, if_neg found]

/-- What a process gets from a read, and the position the kernel stores. -/
theorem read_eq (stores : state.Stores sign log) (inRange : log.InRange sign) (call : ReadCall)
    {position : Nat} (small : position < 2 ^ 63) :
    let result := Aesd.aesdRead state call position
    let found := log.read call position
    (⟨result.retval, result.data⟩ : FileResult) = found.1 ∧
      (if result.retval < 0 then (position : Int) else result.fPos) = found.2 := by
  intro result found
  by_cases enters : call.Enters
  case neg =>
    by_cases refuses : call.privateData = false ∨ call.buf = false
    case pos =>
      have failed : result = ⟨-errnoEfault, [], position, state⟩ := by
        rcases refuses with unopened | null
        · simp only [result, Aesd.aesdRead, unopened, if_true]
        · simp only [result, Aesd.aesdRead, null, if_true, ite_self]
      have refused : found = (⟨-errnoEfault, []⟩, position) := if_pos refuses
      rw [failed, refused]
      exact ⟨rfl, rfl⟩
    case neg =>
      obtain ⟨opened, buf⟩ := not_or.mp refuses
      have lock : call.lock = false := by
        by_contra locked
        exact enters ⟨by simpa using buf, by simpa using opened, by simpa using locked⟩
      have failed : result = ⟨-errnoEintr, [], position, state⟩ := by
        simp only [result, Aesd.aesdRead, if_neg opened, if_neg buf, lock, if_true]
      have refused : found = (⟨-errnoEintr, []⟩, position) := (if_neg refuses).trans (if_pos lock)
      rw [failed, refused]
      exact ⟨rfl, rfl⟩
  case pos =>
    have served := stores.aesdRead_eq inRange enters small
    have entered : found =
        if min call.uncopied (log.readAt position call.count.toNat).1.length ≠ 0 then
          (⟨-errnoEfault, []⟩, position)
        else
          (⟨(log.readAt position call.count.toNat).1.length,
            (log.readAt position call.count.toNat).1.map some⟩,
            (log.readAt position call.count.toNat).2) := by
      simp only [found, Log.read, enters.privateData, enters.buf, enters.lock, Bool.true_eq_false,
        or_self, if_false]
    dsimp only at served
    rw [entered]
    by_cases fails : min call.uncopied (log.readAt position call.count.toNat).1.length ≠ 0
    case pos =>
      rw [if_pos fails] at served ⊢
      have negative : result.retval < 0 := served.1 ▸ by decide
      rw [if_pos negative]
      exact ⟨congrArg₂ _ served.1 served.2, rfl⟩
    case neg =>
      rw [if_neg fails] at served ⊢
      obtain ⟨retval, data, moved⟩ := served
      have nonneg : ¬result.retval < 0 := retval ▸ Int.not_lt.mpr (Int.natCast_nonneg _)
      rw [if_neg nonneg]
      exact ⟨congrArg₂ _ retval data, moved⟩

theorem llseek_eq (stores : state.Stores sign log) (inRange : log.InRange sign) (position : Nat)
    (off : Int) (whence : Whence) :
    let result := Aesd.aesdLlseekCur state.dev position off whence
    let found := log.llseek off whence position
    (⟨result.1, []⟩ : FileResult) = found.1 ∧ result.2 = found.2 := by
  intro result found
  have measured : result = fixedSizeLlseekCur position off whence log.seekSize :=
    stores.aesdLlseekCur inRange position off whence
  rw [measured]
  unfold found fixedSizeLlseekCur fixedSizeLlseek Log.llseek
  dsimp only
  split_ifs with asks inside
  · exact ⟨rfl, rfl⟩
  · exact ⟨rfl, (Int.toNat_of_nonneg inside.1).symm⟩
  · exact ⟨rfl, rfl⟩

/-- Only one command number passes the checks. -/
theorem ioctl_eq (stores : state.Stores sign log) (inRange : log.InRange sign) (call : IoctlCall)
    (position : Nat) :
    let result := Aesd.aesdUnlockedIoctl state.dev call position
    let found := log.ioctl call position
    (⟨result.1, []⟩ : FileResult) = found.1 ∧ result.2 = found.2 := by
  intro result found
  obtain ⟨cmd, arg, lock⟩ := call
  by_cases isSeek : cmd = aesdcharIocseekto
  case neg =>
    have failed : result = (-errnoEnotty, (position : Int)) :=
      if_pos (.inr (.inr (Ne.symm isSeek)))
    have refused : found = (⟨-errnoEnotty, []⟩, position) := if_pos isSeek
    rw [failed, refused]
    exact ⟨rfl, rfl⟩
  case pos =>
    obtain rfl := isSeek
    cases arg with
    | none =>
        have failed : result = (-errnoEfault, (position : Int)) :=
          aesdUnlockedIoctl_uncopied state.dev lock position
        rw [failed]
        exact ⟨rfl, rfl⟩
    | some seek =>
        have checked : found =
            if maxWriteOperations ≤ seek.writeCmd.toNat then (⟨-errnoEinval, []⟩, position)
            else if lock = false then (⟨-errnoEintr, []⟩, position)
            else if seek.writeCmdOffset.toNat < (log.inPlace seek.writeCmd.toNat).length then
              (⟨0, []⟩, log.placeStart seek.writeCmd.toNat + seek.writeCmdOffset.toNat)
            else (⟨-errnoEinval, []⟩, position) := if_neg (not_not.mpr rfl)
        have shape := aesdUnlockedIoctl_some state.dev seek lock position
        rw [checked]
        change result = _ at shape
        rw [shape]
        by_cases outside : maxWriteOperations ≤ seek.writeCmd.toNat
        case pos =>
          rw [if_pos outside, if_pos outside]
          exact ⟨rfl, rfl⟩
        case neg =>
          rw [if_neg outside, if_neg outside]
          by_cases interrupted : lock = false
          case pos =>
            rw [if_pos interrupted, if_pos interrupted]
            exact ⟨rfl, rfl⟩
          case neg =>
            rw [if_neg interrupted, if_neg interrupted,
              stores.aesdUnlockedIoctl inRange (Nat.lt_of_not_le outside)]
            split
            next => exact ⟨rfl, rfl⟩
            next => exact ⟨rfl, rfl⟩

end Stores

end DriverState

end Aesd
