import Aesd.Driver.Archive

/-!
# The driver is the abstract device

A simulation between the open files of the driver and `Archive`: every call has the result of the
abstract device, for as long as the commands are in the range of `char`.
-/

namespace Aesd

open KernelMemory MachineInt

/-- A file that `aesd_open` has opened. -/
def openedAt (position : Nat) : File := ⟨position, true⟩

/-- What the calls have to keep to: a newline is the last byte of a write, a write is not longer
than the kernel makes it, and memory does not run out in a command some bytes of which are
pending. -/
def FilesState.Orderly (state : FilesState) : FileOp → Prop
  | .write _ call =>
      newline ∉ call.bytes.dropLast ∧ call.bytes.length ≤ maxRwCount ∧ state.driver.Supplies call
  | _ => True

instance (state : FilesState) : (op : FileOp) → Decidable (state.Orderly op)
  | .write _ _ => inferInstanceAs (Decidable (_ ∧ _ ∧ _))
  | .openFile | .read _ _ | .llseek _ _ _ | .ioctl _ _ => .isTrue trivial

/-- The driver stores the log, and the files are at the positions of the abstract device. -/
structure FilesState.Serves (sign : CharSign) (state : FilesState) (archive : Archive) : Prop where
  within : archive.log.Within sign
  stores : state.driver.Stores sign archive.log
  files : state.files = archive.positions.map openedAt
  positions : ∀ position ∈ archive.positions, position ≤ maxWriteOperations * sign.max

/-- A call of the driver has the result of the abstract device, and leads to the same again. -/
def FilesState.Matches (sign : CharSign) (state : FilesState) (archive : Archive)
    (op : FileOp) : Prop :=
  (filesStep sign state op).1 = (archive.step op).1 ∧
    (filesStep sign state op).2.Serves sign (archive.step op).2

/-- The file a call is on. -/
def FileOp.file : FileOp → Option Nat
  | .openFile => none
  | .write number _ => some number
  | .read number _ => some number
  | .llseek number _ _ => some number
  | .ioctl number _ => some number

theorem filesStep_closed (sign : CharSign) {state : FilesState} {op : FileOp} {number : Nat}
    (onFile : op.file = some number) (missing : state.files[number]? = none) :
    filesStep sign state op = (⟨-errnoEbadf, []⟩, state) := by
  cases op with
  | openFile => simp [FileOp.file] at onFile
  | write => obtain rfl := Option.some.inj onFile; rw [filesStep, missing]
  | read => obtain rfl := Option.some.inj onFile; rw [filesStep, missing]
  | llseek => obtain rfl := Option.some.inj onFile; rw [filesStep, missing]
  | ioctl => obtain rfl := Option.some.inj onFile; rw [filesStep, missing]

/-- A call does not shorten the log. -/
theorem Archive.within_of_step {sign : CharSign} (archive : Archive) (op : FileOp)
    (within : (archive.step op).2.log.Within sign) : archive.log.Within sign := by
  have onFile : ∀ number call, (archive.onFile number call).2.log = archive.log := by
    intro number call
    unfold Archive.onFile
    split
    next => rfl
    next => rfl
  cases op with
  | openFile => exact within
  | write number call =>
      simp only [step] at within
      split at within
      next => exact within
      next => exact Log.Within.of_write within
  | read => exact (onFile _ _ ▸ within :)
  | llseek => exact (onFile _ _ ▸ within :)
  | ioctl => exact (onFile _ _ ▸ within :)

theorem Archive.step_closed {archive : Archive} {op : FileOp} {number : Nat}
    (onFile : op.file = some number) (missing : archive.positions[number]? = none) :
    archive.step op = (⟨-errnoEbadf, []⟩, archive) := by
  cases op with
  | openFile => simp [FileOp.file] at onFile
  | write => obtain rfl := Option.some.inj onFile; rw [step, missing]
  | read => obtain rfl := Option.some.inj onFile; rw [step, Archive.onFile, missing]
  | llseek => obtain rfl := Option.some.inj onFile; rw [step, Archive.onFile, missing]
  | ioctl => obtain rfl := Option.some.inj onFile; rw [step, Archive.onFile, missing]

namespace FilesState

theorem serves_init (sign : CharSign) : filesInit.Serves sign .empty where
  within := ⟨by simp [Log.InRange, Archive.empty, Log.empty], Nat.zero_le _⟩
  stores := DriverState.stores_init sign
  files := rfl
  positions := by simp [Archive.empty]

namespace Serves

variable {sign : CharSign} {state : FilesState} {archive : Archive} {number position : Nat}

theorem file_eq (serves : state.Serves sign archive) (number : Nat) :
    state.files[number]? = archive.positions[number]?.map openedAt := by
  rw [serves.files, List.getElem?_map]

theorem position_le (serves : state.Serves sign archive)
    (selected : archive.positions[number]? = some position) :
    position ≤ maxWriteOperations * sign.max :=
  serves.positions position (List.mem_of_getElem? selected)

/-- One file gets another position. -/
theorem move {driver : DriverState} (serves : state.Serves sign archive)
    (stores : driver.Stores sign archive.log)
    (small : position ≤ maxWriteOperations * sign.max) :
    Serves sign ⟨driver, state.files.set number (openedAt position)⟩
      (archive.move number position) where
  within := serves.within
  stores := stores
  files := by rw [serves.files, Archive.move, List.map_set]
  positions := by
    intro other member
    rcases List.mem_or_eq_of_mem_set member with old | new
    · exact serves.positions other old
    · rw [new]
      exact small

theorem openFile (serves : state.Serves sign archive) :
    Serves sign { state with files := state.files ++ [aesdOpen] }
      { archive with positions := archive.positions ++ [0] } where
  within := serves.within
  stores := serves.stores
  files := by
    rw [serves.files, List.map_append]
    rfl
  positions := by
    intro position member
    rcases List.mem_append.mp member with old | new
    · exact serves.positions position old
    · rw [List.mem_singleton.mp new]
      exact Nat.zero_le _

/-- A call on a file that is not open. -/
theorem closed (serves : state.Serves sign archive) {op : FileOp} (onFile : op.file = some number)
    (missing : archive.positions[number]? = none) : state.Matches sign archive op := by
  have noFile : state.files[number]? = none := by
    rw [serves.file_eq, missing, Option.map_none]
  rw [Matches, filesStep_closed sign onFile noFile, Archive.step_closed onFile missing]
  exact ⟨rfl, serves⟩

theorem write (serves : state.Serves sign archive)
    (selected : archive.positions[number]? = some position) {call : WriteCall}
    (orderly : state.Orderly (.write number call))
    (within : (archive.step (.write number call)).2.log.Within sign) :
    state.Matches sign archive (.write number call) := by
  obtain ⟨lines, bounded, supplies⟩ := orderly
  have step : filesStep sign state (.write number call) =
      (⟨(aesdWrite sign state.driver { call with privateData := true }).1, []⟩,
        { state with
          driver := writeStep sign state.driver { call with privateData := true } }) := by
    rw [filesStep, serves.file_eq, selected]
    rfl
  have called : archive.step (.write number call) =
      ((archive.log.write { call with privateData := true }).1,
        { archive with log := (archive.log.write { call with privateData := true }).2 }) := by
    rw [Archive.step, selected]
  rw [called] at within
  rw [Matches, step, called]
  obtain ⟨result, stores⟩ :
      (⟨(aesdWrite sign state.driver { call with privateData := true }).1, []⟩ : FileResult) =
        (archive.log.write { call with privateData := true }).1 ∧
      (writeStep sign state.driver { call with privateData := true }).Stores sign
        (archive.log.write { call with privateData := true }).2 :=
    serves.stores.write_eq serves.within lines bounded supplies
  exact ⟨result, within, stores, serves.files, serves.positions⟩

/-- A call that hands a file another position. -/
theorem moves (serves : state.Serves sign archive)
    (selected : archive.positions[number]? = some position) {op : FileOp}
    (call : Nat → FileResult × Nat) {driver : DriverState} {result : FileResult} {fPos : Int}
    (onFile : archive.step op = archive.onFile number call)
    (gets : result = (call position).1) (moved : fPos = (call position).2)
    (step : filesStep sign state op = (result, ⟨driver, state.files.set number ⟨fPos, true⟩⟩))
    (stores : driver.Stores sign archive.log)
    (small : (call position).2 ≤ maxWriteOperations * sign.max) :
    state.Matches sign archive op := by
  have called : archive.step op =
      ((call position).1, archive.move number (call position).2) := by
    rw [onFile, Archive.onFile, selected]
  rw [Matches, step, gets, moved, called]
  exact ⟨rfl, serves.move stores small⟩

theorem read (serves : state.Serves sign archive)
    (selected : archive.positions[number]? = some position) (call : ReadCall) :
    state.Matches sign archive (.read number call) := by
  have small := serves.position_le selected
  have bound := sign.max_le
  have fits : position < 2 ^ 63 := by
    unfold maxWriteOperations at small
    omega
  obtain ⟨result, moved⟩ :=
    serves.stores.read_eq serves.within.1 { call with privateData := true } fits
  apply serves.moves selected (archive.log.read { call with privateData := true }) rfl result moved
  case step =>
    rw [filesStep, serves.file_eq, selected, Option.map_some]
    rfl
  case stores => exact serves.stores.aesdRead { call with privateData := true } position
  case small => exact serves.within.1.read_le { call with privateData := true } small

theorem llseek (serves : state.Serves sign archive)
    (selected : archive.positions[number]? = some position) (off : Int) (whence : Whence) :
    state.Matches sign archive (.llseek number off whence) := by
  obtain ⟨result, moved⟩ := serves.stores.llseek_eq serves.within.1 position off whence
  apply serves.moves selected (archive.log.llseek off whence) rfl result moved
  case step =>
    rw [filesStep, serves.file_eq, selected, Option.map_some]
    rfl
  case stores => exact serves.stores
  case small => exact serves.within.1.llseek_le off whence (serves.position_le selected)

theorem ioctl (serves : state.Serves sign archive)
    (selected : archive.positions[number]? = some position) (call : IoctlCall) :
    state.Matches sign archive (.ioctl number call) := by
  obtain ⟨result, moved⟩ := serves.stores.ioctl_eq serves.within.1 call position
  apply serves.moves selected (archive.log.ioctl call) rfl result moved
  case step =>
    rw [filesStep, serves.file_eq, selected, Option.map_some]
    rfl
  case stores => exact serves.stores
  case small => exact serves.within.1.ioctl_le call (serves.position_le selected)

/-- One call. -/
theorem step (serves : state.Serves sign archive) {op : FileOp} (orderly : state.Orderly op)
    (within : (archive.step op).2.log.Within sign) : state.Matches sign archive op := by
  cases onFile : op.file with
  | none =>
      cases op with
      | openFile => exact ⟨rfl, serves.openFile⟩
      | _ => simp [FileOp.file] at onFile
  | some number =>
      cases selected : archive.positions[number]? with
      | none => exact serves.closed onFile selected
      | some position =>
          cases op with
          | openFile => simp [FileOp.file] at onFile
          | write =>
              obtain rfl := Option.some.inj onFile
              exact serves.write selected orderly within
          | read =>
              obtain rfl := Option.some.inj onFile
              exact serves.read selected _
          | llseek =>
              obtain rfl := Option.some.inj onFile
              exact serves.llseek selected _ _
          | ioctl =>
              obtain rfl := Option.some.inj onFile
              exact serves.ioctl selected _

end Serves

end FilesState

/-- The driver is the abstract device. Whatever is opened, written, read and sought in whatever
order, failing or not, every result is the one of the abstract device, as long as the calls keep
to `Orderly` and the commands, the unfinished one too, are in the range of `char`. -/
theorem filesEvents_eq (sign : CharSign) (ops : List FileOp)
    (orderly : Runs.Along (fun state op => (filesStep sign state op).2) FilesState.Orderly
      filesInit ops)
    (within : (Archive.afterAll ops).log.Within sign) :
    filesEvents sign ops = Archive.events ops := by
  apply Runs.trace_eq_trace (FilesState.Serves sign) fun archive => archive.log.Within sign
  case earlier => exact Archive.within_of_step
  case stepwise =>
    intro state archive op serves orderly _ within
    exact serves.step orderly within
  case initially => exact FilesState.serves_init sign
  case along => exact orderly
  case limited => exact within

/-- Two files, ten commands and one more in two parts, an allocation, a copy and a lock that fail,
and a position behind the size of the device. -/
def twoFiles : List FileOp :=
  .openFile :: (List.range 10).map (fun id => .write 0 (.granted [newline] id)) ++
    [.write 0 { WriteCall.granted [97] 10 with grant := none }, .write 0 (.granted [97] 10),
      .write 0 { WriteCall.granted [98, newline] 11 with uncopied := 1 }, .openFile,
      .write 1 { WriteCall.granted [98, newline] 12 with lock := false },
      .write 1 (.granted [98, newline] 12), .read 0 (.granted 1), .read 1 (.granted 64),
      .ioctl 0 ⟨aesdcharIocseekto, some ⟨9, 0⟩, true⟩, .llseek 0 0 .cur, .llseek 0 1 .cur,
      .read 0 (.granted 64), .llseek 1 (-1) .fromEnd, .read 1 (.granted 64)]

theorem filesEvents_eq_two_files :
    filesEvents .signed twoFiles = Archive.events twoFiles :=
  filesEvents_eq .signed twoFiles (by decide +kernel) (by decide +kernel)

end Aesd
