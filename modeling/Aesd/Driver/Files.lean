import Aesd.Driver.Core

/-!
# Open files

The device behind any number of open files, each with its own position. The kernel hands the
position of the file to `aesd_read` and stores it back unless the driver returns an error;
`aesd_unlocked_ioctl` and the seek of the kernel change the file themselves.
-/

namespace Aesd

open KernelMemory MachineInt

def errnoEbadf : Int := 9

/-- An open file: `f_pos`, and whether `private_data` is set. -/
structure File where
  fPos : Int
  privateData : Bool
  deriving DecidableEq, Repr

/-- `aesd_open`, on a file the kernel has just made. -/
def aesdOpen : File := ⟨0, true⟩

/-- The device and the open files, in the order in which they were opened. -/
structure FilesState where
  driver : DriverState
  files : List File

/-- A fresh device and no open file. -/
def filesInit : FilesState := ⟨aesdInitModule, []⟩

/-- A call of a process on the device. `private_data` is that of the file. -/
inductive FileOp where
  | openFile
  | write (file : Nat) (call : WriteCall)
  | read (file : Nat) (call : ReadCall)
  | llseek (file : Nat) (off : Int) (whence : Whence)
  | ioctl (file : Nat) (call : IoctlCall)
  deriving DecidableEq, Repr

/-- What the process gets. -/
structure FileResult where
  retval : Int
  data : List Cell
  deriving DecidableEq, Repr

/-- One call. -/
def filesStep (sign : CharSign) (state : FilesState) : FileOp → FileResult × FilesState
  | .openFile => (⟨0, []⟩, { state with files := state.files ++ [aesdOpen] })
  | .write number call =>
      match state.files[number]? with
      | none => (⟨-errnoEbadf, []⟩, state)
      | some file =>
          let (retval, driver) :=
            aesdWrite sign state.driver { call with privateData := file.privateData }
          (⟨retval, []⟩, { state with driver })
  | .read number call =>
      match state.files[number]? with
      | none => (⟨-errnoEbadf, []⟩, state)
      | some file =>
          let result :=
            aesdRead state.driver { call with privateData := file.privateData } file.fPos
          let fPos := if result.retval < 0 then file.fPos else result.fPos
          (⟨result.retval, result.data⟩,
            ⟨result.state, state.files.set number { file with fPos }⟩)
  | .llseek number off whence =>
      match state.files[number]? with
      | none => (⟨-errnoEbadf, []⟩, state)
      | some file =>
          let (retval, fPos) := aesdLlseekCur state.driver.dev file.fPos off whence
          (⟨retval, []⟩, { state with files := state.files.set number { file with fPos } })
  | .ioctl number call =>
      match state.files[number]? with
      | none => (⟨-errnoEbadf, []⟩, state)
      | some file =>
          let (retval, fPos) := aesdUnlockedIoctl state.driver.dev call file.fPos
          (⟨retval, []⟩, { state with files := state.files.set number { file with fPos } })

/-- The calls of a run with their results. -/
def filesEvents (sign : CharSign) (ops : List FileOp) : List (FileOp × FileResult) :=
  Runs.trace (filesStep sign) filesInit ops

end Aesd
