import Aesd.CircularBuffer.Core
import Aesd.Library.KernelMemory
import Aesd.Library.Lines
import Aesd.Library.MachineInt
import Aesd.Library.Runs

/-!
# The character device driver

The file operations of `main.c` over the circular buffer and the kernel memory.
Each call of an operation carries what its environment decides: whether the
mutex is obtained, which block an allocation gets, how much of a user copy
fails. The signedness of plain `char` decides what the pending length `cb_size`
is worth, so it is a parameter.

The operations hold the mutex of the device from the first to the last access
of the device state, so one operation is one step.
-/

namespace Aesd

open KernelMemory MachineInt

def errnoEintr : Int := 4
def errnoEnomem : Int := 12
def errnoEfault : Int := 14
def errnoEinval : Int := 22
def errnoEnotty : Int := 25

/-- `'\n'`. -/
def newline : UInt8 := 10

/-- `struct aesd_dev`, without the mutex and the `cdev`. -/
structure AesdDev where
  circBuffer : AesdCircularBuffer Address
  cbBuffer : Pointer
  cbSize : UInt8
  circTotalSize : UInt64

/-- The device together with the memory of its blocks. -/
structure DriverState where
  dev : AesdDev
  mem : Memory

/-- `aesd_init_module`: the device is zeroed, then the circular buffer is
initialised. -/
def aesdInitModule : DriverState where
  dev := ⟨AesdCircularBuffer.aesdCircularBufferInit, none, 0, 0⟩
  mem := Memory.empty

/-! ## Writing -/

/-- One call of `aesd_write`: the user buffer (`none` is a null pointer), whether
`filp->private_data` is set, and the outcomes of the lock, of the allocation and
of the user copy. -/
structure WriteCall where
  buf : Option (List UInt8)
  privateData : Bool
  lock : Bool
  grant : Option BlockId
  uncopied : Nat
  deriving DecidableEq, Repr

/-- The bytes a call hands over; a null pointer hands over none. -/
def WriteCall.bytes (call : WriteCall) : List UInt8 := call.buf.getD []

/-- `MAX_RW_COUNT` of the kernel: no larger count reaches a driver. -/
def maxRwCount : Nat := 0x7ffff000

/-- A call on which nothing fails, if the proposed block can be had. -/
def WriteCall.granted (bytes : List UInt8) (id : BlockId) : WriteCall :=
  ⟨some bytes, true, true, some id, 0⟩

namespace DriverState

/-- The allocation at the start of `aesd_write`: a new block when no bytes are
pending, else the pending block grown by `count`. -/
def reserve (sign : CharSign) (state : DriverState) (grant : Option BlockId) (count : Nat) :
    Pointer × Memory :=
  if state.dev.cbSize = 0 then
    state.mem.kmalloc grant (toSizeT count).toNat
  else
    state.mem.krealloc grant state.dev.cbBuffer
      (toSizeT (sign.promote state.dev.cbSize + count)).toNat

/-- The branch of `aesd_write` for a buffer with a newline: the pending command
is completed by `actualSize` bytes and goes to the circular buffer. The returned
pointer refers to a slot of the array that the addition has already stored
into. -/
def complete (sign : CharSign) (state : DriverState) (actualSize : Nat) : DriverState :=
  let cbSize := state.dev.cbSize + .ofNat actualSize
  let size := toSizeT (sign.promote cbSize)
  let (returnBuff, circBuffer) :=
    state.dev.circBuffer.aesdCircularBufferAddEntry ⟨state.dev.cbBuffer, size⟩
  let circTotalSize := state.dev.circTotalSize + size
  match returnBuff with
  | none =>
      { state with dev := ⟨circBuffer, state.dev.cbBuffer, 0, circTotalSize⟩ }
  | some index =>
      let oldest := circBuffer.slot index
      if oldest.buffptr ≠ none ∧ circBuffer.full then
        { dev := ⟨circBuffer.setSlot index ⟨none, oldest.size⟩, state.dev.cbBuffer, 0,
            circTotalSize - oldest.size⟩
          mem := state.mem.kfree oldest.buffptr }
      else
        { state with dev := ⟨circBuffer, state.dev.cbBuffer, 0, circTotalSize⟩ }

/-- The part of `aesd_write` after a successful copy. The loop reads back the
bytes just copied, so it scans the user buffer. -/
def accept (sign : CharSign) (state : DriverState) (buf : List UInt8) : DriverState :=
  match buf.findIdx? (· = newline) with
  | some i => state.complete sign (i + 1)
  | none =>
      { state with dev := { state.dev with cbSize := state.dev.cbSize + .ofNat buf.length } }

/-- The critical section of `aesd_write`. -/
def writeLocked (sign : CharSign) (state : DriverState) (call : WriteCall)
    (buf : List UInt8) : Int × DriverState :=
  let (cbBuffer, mem) := state.reserve sign call.grant buf.length
  let state : DriverState := ⟨{ state.dev with cbBuffer }, mem⟩
  if cbBuffer = none then
    (-errnoEnomem, state)
  else
    let (left, mem) :=
      state.mem.copyFromUser call.uncopied cbBuffer (sign.promote state.dev.cbSize) buf
    let state : DriverState := ⟨state.dev, mem⟩
    if left ≠ 0 then
      (-errnoEfault, state)
    else
      (buf.length, state.accept sign buf)

end DriverState

/-- `aesd_write`. -/
def aesdWrite (sign : CharSign) (state : DriverState) (call : WriteCall) :
    Int × DriverState :=
  match call.buf with
  | none => (-errnoEfault, state)
  | some buf =>
      if call.privateData = false then (-errnoEfault, state)
      else if call.lock = false then (-errnoEintr, state)
      else state.writeLocked sign call buf

/-- The device after a call of `aesd_write`. -/
def writeStep (sign : CharSign) (state : DriverState) (call : WriteCall) : DriverState :=
  (aesdWrite sign state call).2

/-! ## Reading -/

/-- One call of `aesd_read`. -/
structure ReadCall where
  buf : Bool
  privateData : Bool
  lock : Bool
  uncopied : Nat
  count : UInt64
  deriving DecidableEq, Repr

/-- The return value of `aesd_read`, the bytes it handed to the reader, `*f_pos`
and the device afterwards. -/
structure ReadResult where
  retval : Int
  data : List Cell
  fPos : Int
  state : DriverState

/-- Addition to a `loff_t`. -/
def advancePos (fPos : Int) (amount : UInt64) : Int := toSigned64 (toSizeT fPos + amount)

/-- `aesd_read`. The comparison of the rest of the entry with `count` is between
unsigned values. -/
def aesdRead (state : DriverState) (call : ReadCall) (fPos : Int) : ReadResult :=
  if call.privateData = false then ⟨-errnoEfault, [], fPos, state⟩
  else if call.buf = false then ⟨-errnoEfault, [], fPos, state⟩
  else if call.lock = false then ⟨-errnoEintr, [], fPos, state⟩
  else
    match state.dev.circBuffer.aesdCircularBufferFindEntryOffsetForFpos (toSizeT fPos) with
    | (none, _) => ⟨0, [], 0, state⟩
    | (some index, offset) =>
        let entry := state.dev.circBuffer.slot index
        if entry.buffptr = none then ⟨0, [], fPos, state⟩
        else
          let rest := entry.size - offset
          let count := if rest < call.count then rest else call.count
          let fPos := advancePos fPos count
          let (left, data, mem) :=
            state.mem.copyToUser call.uncopied entry.buffptr offset.toNat count.toNat
          if left ≠ 0 then ⟨-errnoEfault, [], fPos, ⟨state.dev, mem⟩⟩
          else ⟨toSigned64 count, data, fPos, ⟨state.dev, mem⟩⟩

/-! ## Positioning -/

/-- The `whence` argument of a seek. -/
inductive Whence where
  | set
  | cur
  | fromEnd
  deriving DecidableEq, Repr

/-- The position a seek asks for, on a file of the given size. -/
def seekTarget (fPos size off : Int) : Whence → Int
  | .set => off
  | .cur => fPos + off
  | .fromEnd => size + off

/-- `fixed_size_llseek` of the kernel, if it accepts exactly the targets from 0 to the size: the
return value and the file position. -/
def fixedSizeLlseek (fPos off : Int) (whence : Whence) (size : Int) : Int × Int :=
  let target := seekTarget fPos size off whence
  if 0 ≤ target ∧ target ≤ size then (target, target) else (-errnoEinval, fPos)

/-- `aesd_llseek`. -/
def aesdLlseek (dev : AesdDev) (fPos off : Int) (whence : Whence) : Int × Int :=
  fixedSizeLlseek fPos off whence (toSigned64 dev.circTotalSize)

/-- `fixed_size_llseek` with the one case that it does not check: a `SEEK_CUR` by 0 asks for the
position, which an `ioctl` may have put behind the size. -/
def fixedSizeLlseekCur (fPos off : Int) (whence : Whence) (size : Int) : Int × Int :=
  if whence = .cur ∧ off = 0 then (fPos, fPos) else fixedSizeLlseek fPos off whence size

/-- `aesd_llseek` over that. -/
def aesdLlseekCur (dev : AesdDev) (fPos off : Int) (whence : Whence) : Int × Int :=
  fixedSizeLlseekCur fPos off whence (toSigned64 dev.circTotalSize)

/-- `struct aesd_seekto`. -/
structure AesdSeekto where
  writeCmd : UInt32
  writeCmdOffset : UInt32
  deriving DecidableEq, Repr

/-- `AESD_IOC_MAGIC`. -/
def aesdIocMagic : UInt32 := 0x16

/-- `AESDCHAR_IOC_MAXNR`. -/
def aesdcharIocMaxnr : UInt32 := 1

/-- `_IOC_TYPE`. -/
def iocType (cmd : UInt32) : UInt32 := (cmd >>> 8) &&& 0xff

/-- `_IOC_NR`. -/
def iocNr (cmd : UInt32) : UInt32 := cmd &&& 0xff

/-- `AESDCHAR_IOCSEEKTO`: read and write direction, the size of the structure, the
magic and command number 1. -/
def aesdcharIocseekto : UInt32 :=
  ((3 : UInt32) <<< 30) ||| ((8 : UInt32) <<< 16) ||| (aesdIocMagic <<< 8) ||| 1

/-- One call of `aesd_unlocked_ioctl`: the command, the structure at the user
address (`none` when it cannot be copied) and the outcome of the lock. -/
structure IoctlCall where
  cmd : UInt32
  arg : Option AesdSeekto
  lock : Bool
  deriving DecidableEq, Repr

/-- The loop of `aesd_unlocked_ioctl` over the slots before the addressed one;
`none` when it meets an entry without bytes. The sum is kept in an `int`. -/
def seekLoop (circBuffer : AesdCircularBuffer Address) : Nat → Nat → Int → Option Int
  | 0, _, fpos => some fpos
  | remaining + 1, i, fpos =>
      if (circBuffer.slot i).size = 0 then none
      else
        seekLoop circBuffer remaining (i + 1) (toInt32 (fpos + (circBuffer.slot i).size.toNat))

/-- `aesd_unlocked_ioctl`: the return value and `filp->f_pos`. -/
def aesdUnlockedIoctl (dev : AesdDev) (call : IoctlCall) (fPos : Int) : Int × Int :=
  if iocType call.cmd ≠ aesdIocMagic ∨ iocNr call.cmd > aesdcharIocMaxnr ∨
      aesdcharIocseekto ≠ call.cmd then (-errnoEnotty, fPos)
  else
    match call.arg with
    | none => (-errnoEfault, fPos)
    | some seek =>
        if maxWriteOperations ≤ seek.writeCmd.toNat then (-errnoEinval, fPos)
        else if call.lock = false then (-errnoEintr, fPos)
        else if (dev.circBuffer.slot seek.writeCmd.toNat).size.toNat ≤
            seek.writeCmdOffset.toNat then (-errnoEinval, fPos)
        else
          match seekLoop dev.circBuffer seek.writeCmd.toNat 0 0 with
          | none => (-errnoEinval, fPos)
          | some fpos => (0, toInt32 (fpos + seek.writeCmdOffset.toNat))

/-! ## Unloading -/

/-- `aesd_cleanup_module`: the block of every slot is freed. -/
def aesdCleanupModule (state : DriverState) : DriverState where
  dev := state.dev
  mem := (List.range maxWriteOperations).foldl
    (fun mem index => mem.kfree (state.dev.circBuffer.slot index).buffptr) state.mem

end Aesd
