import Aesd.Driver.Ownership
import Aesd.Driver.Reading
import Aesd.Library.Sections

/-!
# Calls that run at once

`aesd_write`, `aesd_read` and `aesd_unlocked_ioctl` statement by statement, from the lock to the
unlock of each path. Run alone they do what the functions of `Driver.Core` do in one step, so
calls whose statements come in any order behave like single steps too, in the order in which
they obtain the mutex. A call of another function is one statement here: it does not touch the
mutex.

`aesd_llseek` takes no lock and is not among the calls.
-/

namespace Aesd

open KernelMemory MachineInt Sections

/-- A call on the device. The position of a read and of a seek is the one the kernel hands
over. -/
inductive DeviceCall where
  | write (call : WriteCall)
  | read (call : ReadCall) (fPos : Int)
  | ioctl (call : IoctlCall) (fPos : Int)
  deriving DecidableEq, Repr

/-- What a call hands back: its return value, the bytes for the reader, and the position. -/
inductive DeviceResult where
  | write (retval : Int)
  | read (retval : Int) (data : List Cell) (fPos : Int)
  | ioctl (retval fPos : Int)
  deriving DecidableEq, Repr

/-- A call in one step. -/
def deviceCall (sign : CharSign) : DeviceCall → DriverState → DeviceResult × DriverState
  | .write call, state =>
      let (retval, after) := aesdWrite sign state call
      (.write retval, after)
  | .read call fPos, state =>
      let result := aesdRead state call fPos
      (.read result.retval result.data result.fPos, result.state)
  | .ioctl call fPos, state =>
      let (retval, fPos) := aesdUnlockedIoctl state.dev call fPos
      (.ioctl retval fPos, state)

/-! ## `aesd_write` -/

/-- Where in its section a write is, with the local variables that are read later:
before the allocation, before the test of its result and the copy, before the test of the loop,
before the statements of the branch for a complete command, before the one of the other branch,
or before the unlock. -/
inductive WriteLocal where
  | allocate
  | copy
  | scan (i : Nat)
  | complete (actualSize : Nat)
  | addEntry (entry : AesdBufferEntry Address)
  | addTotal (returnBuff : Option Nat)
  | evict (returnBuff : Option Nat)
  | free (index : Nat)
  | clear (index : Nat)
  | reset
  | extend
  | errHandle (retval : Int)

/-- The next statement of a write. -/
def writeStatement (sign : CharSign) (call : WriteCall) (buf : List UInt8) :
    WriteLocal → DriverState → DriverState × Outcome WriteLocal Int
  | .allocate, state =>
      let (cbBuffer, mem) := state.reserve sign call.grant buf.length
      (⟨{ state.dev with cbBuffer }, mem⟩, .goOn .copy)
  | .copy, state =>
      if state.dev.cbBuffer = none then (state, .goOn (.errHandle (-errnoEnomem)))
      else
        let (left, mem) := state.mem.copyFromUser call.uncopied state.dev.cbBuffer
          (sign.promote state.dev.cbSize) buf
        (⟨state.dev, mem⟩,
          .goOn (if left ≠ 0 then .errHandle (-errnoEfault) else .scan 0))
  | .scan i, state =>
      match buf[i]? with
      | none => (state, .goOn .extend)
      | some byte => (state, .goOn (if byte = newline then .complete (i + 1) else .scan (i + 1)))
  | .complete actualSize, state =>
      let cbSize := state.dev.cbSize + .ofNat actualSize
      (⟨{ state.dev with cbSize }, state.mem⟩,
        .goOn (.addEntry ⟨state.dev.cbBuffer, toSizeT (sign.promote cbSize)⟩))
  | .addEntry entry, state =>
      let (returnBuff, circBuffer) := state.dev.circBuffer.aesdCircularBufferAddEntry entry
      (⟨{ state.dev with circBuffer }, state.mem⟩, .goOn (.addTotal returnBuff))
  | .addTotal returnBuff, state =>
      let circTotalSize := state.dev.circTotalSize + toSizeT (sign.promote state.dev.cbSize)
      (⟨{ state.dev with circTotalSize }, state.mem⟩, .goOn (.evict returnBuff))
  | .evict none, state => (state, .goOn .reset)
  | .evict (some index), state =>
      let oldest := state.dev.circBuffer.slot index
      if oldest.buffptr ≠ none ∧ state.dev.circBuffer.full then
        let circTotalSize := state.dev.circTotalSize - oldest.size
        (⟨{ state.dev with circTotalSize }, state.mem⟩, .goOn (.free index))
      else (state, .goOn .reset)
  | .free index, state =>
      (⟨state.dev, state.mem.kfree (state.dev.circBuffer.slot index).buffptr⟩,
        .goOn (.clear index))
  | .clear index, state =>
      let circBuffer := state.dev.circBuffer.setSlot index
        ⟨none, (state.dev.circBuffer.slot index).size⟩
      (⟨{ state.dev with circBuffer }, state.mem⟩, .goOn .reset)
  | .reset, state =>
      (⟨{ state.dev with cbSize := 0 }, state.mem⟩, .goOn (.errHandle buf.length))
  | .extend, state =>
      (⟨{ state.dev with cbSize := state.dev.cbSize + .ofNat buf.length }, state.mem⟩,
        .goOn (.errHandle buf.length))
  | .errHandle retval, state => (state, .unlock retval)

section Write

variable {sign : CharSign} {call : WriteCall} {buf : List UInt8}

theorem finishes_errHandle (retval : Int) (state : DriverState) :
    Finishes (writeStatement sign call buf) (.errHandle retval) state (retval, state) :=
  .last rfl

/-- From the reset on. -/
theorem finishes_reset (state : DriverState) :
    Finishes (writeStatement sign call buf) .reset state
      (buf.length, ⟨{ state.dev with cbSize := 0 }, state.mem⟩) :=
  .more rfl (finishes_errHandle ..)

/-- From the test of the returned entry on. -/
def evicted (state : DriverState) : Option Nat → DriverState
  | none => ⟨{ state.dev with cbSize := 0 }, state.mem⟩
  | some index =>
      let oldest := state.dev.circBuffer.slot index
      if oldest.buffptr ≠ none ∧ state.dev.circBuffer.full then
        { dev := ⟨state.dev.circBuffer.setSlot index ⟨none, oldest.size⟩, state.dev.cbBuffer, 0,
            state.dev.circTotalSize - oldest.size⟩
          mem := state.mem.kfree oldest.buffptr }
      else ⟨{ state.dev with cbSize := 0 }, state.mem⟩

theorem finishes_evict (state : DriverState) (returnBuff : Option Nat) :
    Finishes (writeStatement sign call buf) (.evict returnBuff) state
      (buf.length, evicted state returnBuff) := by
  cases returnBuff with
  | none => exact .more rfl (finishes_reset state)
  | some index =>
      by_cases evicts : (state.dev.circBuffer.slot index).buffptr ≠ none ∧
          state.dev.circBuffer.full
      case pos =>
        rw [evicted, if_pos evicts]
        exact .more (if_pos evicts) (.more rfl (.more rfl (finishes_reset _)))
      case neg =>
        rw [evicted, if_neg evicts]
        exact .more (if_neg evicts) (finishes_reset state)

/-- The device before that test. -/
def added (sign : CharSign) (state : DriverState) (actualSize : Nat) : DriverState :=
  let cbSize := state.dev.cbSize + .ofNat actualSize
  let size := toSizeT (sign.promote cbSize)
  ⟨⟨(state.dev.circBuffer.aesdCircularBufferAddEntry ⟨state.dev.cbBuffer, size⟩).2,
    state.dev.cbBuffer, cbSize, state.dev.circTotalSize + size⟩, state.mem⟩

theorem complete_eq_evicted (state : DriverState) (actualSize : Nat) :
    state.complete sign actualSize = evicted (added sign state actualSize)
      (state.dev.circBuffer.aesdCircularBufferAddEntry
        ⟨state.dev.cbBuffer, state.recordedSize sign actualSize⟩).1 := by
  unfold DriverState.complete DriverState.recordedSize
  cases returned : (state.dev.circBuffer.aesdCircularBufferAddEntry
    ⟨state.dev.cbBuffer, toSizeT (sign.promote (state.dev.cbSize + .ofNat actualSize))⟩).1 with
  | none =>
      simp only [returned]
      rfl
  | some index =>
      simp only [returned]
      rfl

/-- The branch for a complete command. -/
theorem finishes_complete (state : DriverState) (actualSize : Nat) :
    Finishes (writeStatement sign call buf) (.complete actualSize) state
      (buf.length, state.complete sign actualSize) := by
  rw [complete_eq_evicted]
  exact .more rfl (.more rfl (.more rfl (finishes_evict (added sign state actualSize) _)))

/-- The loop over the bytes, behind those that are no newline. -/
theorem finishes_scan (state : DriverState) {passed rest : List UInt8}
    (whole : passed ++ rest = buf) (missing : newline ∉ passed) :
    Finishes (writeStatement sign call buf) (.scan passed.length) state
      (buf.length, state.accept sign buf) := by
  induction rest generalizing passed with
  | nil =>
      obtain rfl : passed = buf := (List.append_nil passed).symm.trans whole
      have ends : passed[passed.length]? = none := List.getElem?_eq_none le_rfl
      have goesOn : writeStatement sign call passed (.scan passed.length) state =
          (state, .goOn .extend) := by simp only [writeStatement, ends]
      have extends_ : writeStatement sign call passed .extend state =
          (state.accept sign passed, .goOn (.errHandle passed.length)) := by
        rw [state.accept_of_notMem sign missing]
        rfl
      exact .more goesOn (.more extends_ (finishes_errHandle ..))
  | cons byte rest ih =>
      have here : buf[passed.length]? = some byte := by
        rw [← whole, List.getElem?_append_right le_rfl, Nat.sub_self]
        rfl
      by_cases isNewline : byte = newline
      case pos =>
        have goesOn : writeStatement sign call buf (.scan passed.length) state =
            (state, .goOn (.complete (passed.length + 1))) := by
          simp only [writeStatement, here, isNewline, if_true]
        refine .more goesOn ?_
        rw [← whole, isNewline, state.accept_line sign missing rest]
        exact finishes_complete ..
      case neg =>
        have goesOn : writeStatement sign call buf (.scan passed.length) state =
            (state, .goOn (.scan (passed ++ [byte]).length)) := by
          simp only [writeStatement, here, isNewline, if_false, List.length_append,
            List.length_singleton]
        refine .more goesOn (ih ?_ ?_)
        · rw [List.append_assoc]
          exact whole
        · intro member
          rcases List.mem_append.mp member with earlier | last
          · exact missing earlier
          · exact isNewline (List.mem_singleton.mp last).symm

/-- The statements of a write are its critical section. -/
theorem finishes_write (state : DriverState) :
    Finishes (writeStatement sign call buf) .allocate state
      (state.writeLocked sign call buf) := by
  let reserved := state.reserve sign call.grant buf.length
  let copied := reserved.2.copyFromUser call.uncopied reserved.1
    (sign.promote state.dev.cbSize) buf
  have allocates : writeStatement sign call buf .allocate state =
      (⟨{ state.dev with cbBuffer := reserved.1 }, reserved.2⟩, .goOn .copy) := rfl
  refine .more allocates ?_
  unfold DriverState.writeLocked
  by_cases null : reserved.1 = none
  case pos =>
    have goesOn : writeStatement sign call buf .copy
        ⟨{ state.dev with cbBuffer := reserved.1 }, reserved.2⟩ =
        (⟨{ state.dev with cbBuffer := reserved.1 }, reserved.2⟩,
          .goOn (.errHandle (-errnoEnomem))) := if_pos null
    refine .more goesOn ?_
    change Finishes _ _ _ (if reserved.1 = none then _ else _)
    rw [if_pos null]
    exact finishes_errHandle ..
  case neg =>
    have goesOn : writeStatement sign call buf .copy
        ⟨{ state.dev with cbBuffer := reserved.1 }, reserved.2⟩ =
        (⟨{ state.dev with cbBuffer := reserved.1 }, copied.2⟩,
          .goOn (if copied.1 ≠ 0 then .errHandle (-errnoEfault) else .scan 0)) := if_neg null
    refine .more goesOn ?_
    change Finishes _ _ _ (if reserved.1 = none then _ else if copied.1 ≠ 0 then _ else _)
    rw [if_neg null]
    by_cases fails : copied.1 ≠ 0
    case pos =>
      rw [if_pos fails, if_pos fails]
      exact finishes_errHandle ..
    case neg =>
      rw [if_neg fails, if_neg fails]
      exact finishes_scan _ (List.nil_append buf) List.not_mem_nil

end Write

/-! ## `aesd_read` -/

/-- Where in its section a read is: before the lookup, before the tests of its result, before
the statements that move the position, before the copy, or before the unlock. -/
inductive ReadLocal where
  | find (fPos : Int)
  | test (fPos : Int) (tempBuffer : Option Nat) (offset : UInt64)
  | advance (fPos : Int) (index : Nat) (offset : UInt64)
  | copy (fPos : Int) (index : Nat) (offset tempBufferCount : UInt64)
  | errHandle (retval : Int) (data : List Cell) (fPos : Int)

/-- The next statement of a read. -/
def readStatement (call : ReadCall) :
    ReadLocal → DriverState → DriverState × Outcome ReadLocal (Int × List Cell × Int)
  | .find fPos, state =>
      let (tempBuffer, offset) :=
        state.dev.circBuffer.aesdCircularBufferFindEntryOffsetForFpos (toSizeT fPos)
      (state, .goOn (.test fPos tempBuffer offset))
  | .test _ none _, state => (state, .goOn (.errHandle 0 [] 0))
  | .test fPos (some index) offset, state =>
      if (state.dev.circBuffer.slot index).buffptr = none then
        (state, .goOn (.errHandle 0 [] fPos))
      else (state, .goOn (.advance fPos index offset))
  | .advance fPos index offset, state =>
      let tempBufferCount := (state.dev.circBuffer.slot index).size - offset
      if tempBufferCount < call.count then
        (state, .goOn (.copy (advancePos fPos tempBufferCount) index offset tempBufferCount))
      else (state, .goOn (.copy (advancePos fPos call.count) index offset call.count))
  | .copy fPos index offset tempBufferCount, state =>
      let (left, data, mem) := state.mem.copyToUser call.uncopied
        (state.dev.circBuffer.slot index).buffptr offset.toNat tempBufferCount.toNat
      (⟨state.dev, mem⟩, .goOn (
        if left ≠ 0 then .errHandle (-errnoEfault) [] fPos
        else .errHandle (toSigned64 tempBufferCount) data fPos))
  | .errHandle retval data fPos, state => (state, .unlock (retval, data, fPos))

/-- The result of a read, the device apart. -/
def ReadResult.handed (result : ReadResult) : Int × List Cell × Int :=
  (result.retval, result.data, result.fPos)

theorem finishes_handed {call : ReadCall} (retval : Int) (data : List Cell) (fPos : Int)
    (state : DriverState) :
    Finishes (readStatement call) (.errHandle retval data fPos) state
      ((retval, data, fPos), state) :=
  .last rfl

/-- What a read hands back from its copy on. -/
def copyResult (state : DriverState) (call : ReadCall) (fPos : Int) (index : Nat)
    (offset tempBufferCount : UInt64) : ReadResult :=
  let copied := state.mem.copyToUser call.uncopied (state.dev.circBuffer.slot index).buffptr
    offset.toNat tempBufferCount.toNat
  if copied.1 ≠ 0 then ⟨-errnoEfault, [], fPos, ⟨state.dev, copied.2.2⟩⟩
  else ⟨toSigned64 tempBufferCount, copied.2.1, fPos, ⟨state.dev, copied.2.2⟩⟩

theorem finishes_copy {call : ReadCall} (state : DriverState) (fPos : Int) (index : Nat)
    (offset tempBufferCount : UInt64) :
    Finishes (readStatement call) (.copy fPos index offset tempBufferCount) state
      ((copyResult state call fPos index offset tempBufferCount).handed,
        (copyResult state call fPos index offset tempBufferCount).state) := by
  obtain ⟨left, data, mem, copied⟩ : ∃ left data mem,
      state.mem.copyToUser call.uncopied (state.dev.circBuffer.slot index).buffptr
        offset.toNat tempBufferCount.toNat = (left, data, mem) := ⟨_, _, _, rfl⟩
  have copies : readStatement call (.copy fPos index offset tempBufferCount) state =
      (⟨state.dev, mem⟩, .goOn (
        if left ≠ 0 then .errHandle (-errnoEfault) [] fPos
        else .errHandle (toSigned64 tempBufferCount) data fPos)) := by
    simp only [readStatement, copied]
  refine .more copies ?_
  rw [copyResult, copied]
  by_cases fails : left ≠ 0
  case pos =>
    rw [if_pos fails, if_pos fails]
    exact finishes_handed ..
  case neg =>
    rw [if_neg fails, if_neg fails]
    dsimp only [ReadResult.handed]
    exact finishes_handed ..

/-- The statements of a read are its critical section. -/
theorem finishes_read {call : ReadCall} (enters : call.Enters) (state : DriverState)
    (fPos : Int) :
    Finishes (readStatement call) (.find fPos) state
      ((aesdRead state call fPos).handed, (aesdRead state call fPos).state) := by
  cases found : state.dev.circBuffer.aesdCircularBufferFindEntryOffsetForFpos
    (toSizeT fPos) with
  | mk tempBuffer offset =>
      have finds : readStatement call (.find fPos) state =
          (state, .goOn (.test fPos tempBuffer offset)) := by
        simp only [readStatement, found]
      refine .more finds ?_
      cases tempBuffer with
      | none =>
          rw [DriverState.aesdRead_of_not_found enters found]
          exact .more rfl (finishes_handed ..)
      | some index =>
          rw [DriverState.aesdRead_of_found enters found]
          by_cases null : (state.dev.circBuffer.slot index).buffptr = none
          case pos =>
            rw [if_pos null]
            exact .more (if_pos null) (finishes_handed ..)
          case neg =>
            rw [if_neg null]
            let served :=
              DriverState.servedCount (state.dev.circBuffer.slot index) offset call.count
            have moves : readStatement call (.advance fPos index offset) state =
                (state, .goOn (.copy (advancePos fPos served) index offset served)) := by
              dsimp only [readStatement, served, DriverState.servedCount]
              split
              next => rfl
              next => rfl
            refine .more (if_neg null) (.more moves ?_)
            exact finishes_copy state (advancePos fPos served) index offset served

/-! ## `aesd_unlocked_ioctl` -/

/-- Where in its section an `ioctl` is: before the test of the offset, before the test of the
loop, or before the unlock. -/
inductive IoctlLocal where
  | check
  | loop (i : Nat) (fpos : Int)
  | errHandle (retval fPos : Int)

/-- The next statement of an `ioctl` with this request. The statements behind the unlock of the
last path touch local variables and the file only, so they belong to the unlock. -/
def ioctlStatement (seek : AesdSeekto) (fPos : Int) :
    IoctlLocal → DriverState → DriverState × Outcome IoctlLocal (Int × Int)
  | .check, state =>
      if (state.dev.circBuffer.slot seek.writeCmd.toNat).size.toNat ≤
          seek.writeCmdOffset.toNat then
        (state, .goOn (.errHandle (-errnoEinval) fPos))
      else (state, .goOn (.loop 0 0))
  | .loop i fpos, state =>
      if i < seek.writeCmd.toNat then
        if (state.dev.circBuffer.slot i).size = 0 then
          (state, .goOn (.errHandle (-errnoEinval) fPos))
        else
          (state, .goOn (.loop (i + 1)
            (toInt32 (fpos + (state.dev.circBuffer.slot i).size.toNat))))
      else (state, .unlock (0, toInt32 (fpos + seek.writeCmdOffset.toNat)))
  | .errHandle retval fPos, state => (state, .unlock (retval, fPos))

/-- What an `ioctl` hands back behind its loop. -/
def seekResult (seek : AesdSeekto) (fPos : Int) : Option Int → Int × Int
  | none => (-errnoEinval, fPos)
  | some fpos => (0, toInt32 (fpos + seek.writeCmdOffset.toNat))

theorem finishes_loop {seek : AesdSeekto} {fPos : Int} (state : DriverState) (remaining : Nat)
    {i : Nat} (fpos : Int) (total : i + remaining = seek.writeCmd.toNat) :
    Finishes (ioctlStatement seek fPos) (.loop i fpos) state
      (seekResult seek fPos (seekLoop state.dev.circBuffer remaining i fpos), state) := by
  induction remaining generalizing i fpos with
  | zero =>
      refine .last (if_neg ?_)
      omega
  | succ remaining ih =>
      have inside : i < seek.writeCmd.toNat := by omega
      by_cases empty : (state.dev.circBuffer.slot i).size = 0
      case pos =>
        rw [seekLoop, if_pos empty]
        exact .more ((if_pos inside).trans (if_pos empty)) (.last rfl)
      case neg =>
        rw [seekLoop, if_neg empty]
        refine .more ((if_pos inside).trans (if_neg empty)) (ih _ ?_)
        omega

/-- The statements of an `ioctl` are its critical section. -/
theorem finishes_ioctl (seek : AesdSeekto) (fPos : Int) (state : DriverState) :
    Finishes (ioctlStatement seek fPos) .check state
      (if (state.dev.circBuffer.slot seek.writeCmd.toNat).size.toNat ≤
          seek.writeCmdOffset.toNat then (-errnoEinval, fPos)
        else
          match seekLoop state.dev.circBuffer seek.writeCmd.toNat 0 0 with
          | none => (-errnoEinval, fPos)
          | some fpos => (0, toInt32 (fpos + seek.writeCmdOffset.toNat)), state) := by
  by_cases beyond : (state.dev.circBuffer.slot seek.writeCmd.toNat).size.toNat ≤
      seek.writeCmdOffset.toNat
  case pos =>
    rw [if_pos beyond]
    exact .more (if_pos beyond) (.last rfl)
  case neg =>
    rw [if_neg beyond]
    exact .more (if_neg beyond) (finishes_loop state _ 0 (Nat.zero_add _))

/-! ## The calls together -/

/-- Where in its section a call is. -/
inductive DeviceLocal where
  | write (call : WriteCall) (buf : List UInt8) (locals : WriteLocal)
  | read (call : ReadCall) (locals : ReadLocal)
  | ioctl (seek : AesdSeekto) (fPos : Int) (locals : IoctlLocal)

/-- The statements of a write in front of its section: it returns, or it has the mutex. -/
def enterWrite (call : WriteCall) : DeviceResult ⊕ DeviceLocal :=
  match call.buf with
  | none => .inl (.write (-errnoEfault))
  | some buf =>
      if call.privateData = false then .inl (.write (-errnoEfault))
      else if call.lock = false then .inl (.write (-errnoEintr))
      else .inr (.write call buf .allocate)

/-- The statements of a read in front of its section. -/
def enterRead (call : ReadCall) (fPos : Int) : DeviceResult ⊕ DeviceLocal :=
  if call.privateData = false then .inl (.read (-errnoEfault) [] fPos)
  else if call.buf = false then .inl (.read (-errnoEfault) [] fPos)
  else if call.lock = false then .inl (.read (-errnoEintr) [] fPos)
  else .inr (.read call (.find fPos))

/-- The statements of an `ioctl` in front of its section. -/
def enterIoctl (call : IoctlCall) (fPos : Int) : DeviceResult ⊕ DeviceLocal :=
  if iocType call.cmd ≠ aesdIocMagic ∨ iocNr call.cmd > aesdcharIocMaxnr ∨
      aesdcharIocseekto ≠ call.cmd then .inl (.ioctl (-errnoEnotty) fPos)
  else
    match call.arg with
    | none => .inl (.ioctl (-errnoEfault) fPos)
    | some seek =>
        if maxWriteOperations ≤ seek.writeCmd.toNat then .inl (.ioctl (-errnoEinval) fPos)
        else if call.lock = false then .inl (.ioctl (-errnoEintr) fPos)
        else .inr (.ioctl seek fPos .check)

/-- The statements of a call in front of its section. -/
def enterCall : DeviceCall → DeviceResult ⊕ DeviceLocal
  | .write call => enterWrite call
  | .read call fPos => enterRead call fPos
  | .ioctl call fPos => enterIoctl call fPos

/-- The next statement of a call in its section. -/
def deviceStatement (sign : CharSign) :
    DeviceLocal → DriverState → DriverState × Outcome DeviceLocal DeviceResult
  | .write call buf locals, state =>
      let (state, outcome) := writeStatement sign call buf locals state
      (state, outcome.map (.write call buf) .write)
  | .read call locals, state =>
      let (state, outcome) := readStatement call locals state
      (state, outcome.map (.read call) fun handed => .read handed.1 handed.2.1 handed.2.2)
  | .ioctl seek fPos locals, state =>
      let (state, outcome) := ioctlStatement seek fPos locals state
      (state, outcome.map (.ioctl seek fPos) fun handed => .ioctl handed.1 handed.2)

theorem deviceStatement_write (sign : CharSign) (call : WriteCall) (buf : List UInt8)
    (locals : WriteLocal) (state : DriverState) :
    deviceStatement sign (.write call buf locals) state =
      ((writeStatement sign call buf locals state).1,
        (writeStatement sign call buf locals state).2.map (.write call buf) .write) := rfl

theorem deviceStatement_read (sign : CharSign) (call : ReadCall) (locals : ReadLocal)
    (state : DriverState) :
    deviceStatement sign (.read call locals) state =
      ((readStatement call locals state).1,
        (readStatement call locals state).2.map (.read call)
          fun handed => .read handed.1 handed.2.1 handed.2.2) := rfl

theorem deviceStatement_ioctl (sign : CharSign) (seek : AesdSeekto) (fPos : Int)
    (locals : IoctlLocal) (state : DriverState) :
    deviceStatement sign (.ioctl seek fPos locals) state =
      ((ioctlStatement seek fPos locals state).1,
        (ioctlStatement seek fPos locals state).2.map (.ioctl seek fPos)
          fun handed => .ioctl handed.1 handed.2) := rfl

/-- The calls of the driver. -/
def deviceCode (sign : CharSign) : Code DriverState DeviceCall DeviceLocal DeviceResult where
  enter := enterCall
  step := deviceStatement sign

/-- A write returns before its section, or it gets there and is the section. -/
theorem enterWrite_cases (sign : CharSign) (call : WriteCall) :
    (∃ retval, enterWrite call = .inl (.write retval) ∧
        ∀ state, aesdWrite sign state call = (retval, state)) ∨
      ∃ buf, enterWrite call = .inr (.write call buf .allocate) ∧
        ∀ state, aesdWrite sign state call = state.writeLocked sign call buf := by
  unfold enterWrite aesdWrite
  cases call.buf with
  | none => exact .inl ⟨_, rfl, fun _ => rfl⟩
  | some buf =>
      by_cases closed : call.privateData = false
      case pos => exact .inl ⟨_, if_pos closed, fun _ => if_pos closed⟩
      case neg =>
        simp only [closed]
        by_cases busy : call.lock = false
        case pos => exact .inl ⟨_, if_pos busy, fun _ => if_pos busy⟩
        case neg => exact .inr ⟨buf, if_neg busy, fun _ => if_neg busy⟩

/-- A read returns before its section, or it gets there. -/
theorem enterRead_cases (call : ReadCall) (fPos : Int) :
    (∃ retval, enterRead call fPos = .inl (.read retval [] fPos) ∧
        ∀ state, aesdRead state call fPos = ⟨retval, [], fPos, state⟩) ∨
      call.Enters ∧ enterRead call fPos = .inr (.read call (.find fPos)) := by
  unfold enterRead aesdRead
  by_cases closed : call.privateData = false
  case pos => exact .inl ⟨_, if_pos closed, fun _ => if_pos closed⟩
  case neg =>
    simp only [closed]
    by_cases absent : call.buf = false
    case pos => exact .inl ⟨_, if_pos absent, fun _ => if_pos absent⟩
    case neg =>
      simp only [absent]
      by_cases busy : call.lock = false
      case pos => exact .inl ⟨_, if_pos busy, fun _ => if_pos busy⟩
      case neg =>
        refine .inr ⟨⟨?_, ?_, ?_⟩, if_neg busy⟩
        · exact Bool.eq_true_of_not_eq_false absent
        · exact Bool.eq_true_of_not_eq_false closed
        · exact Bool.eq_true_of_not_eq_false busy

/-- An `ioctl` returns before its section, or it gets there and is the section. -/
theorem enterIoctl_cases (call : IoctlCall) (fPos : Int) :
    (∃ retval, enterIoctl call fPos = .inl (.ioctl retval fPos) ∧
        ∀ dev, aesdUnlockedIoctl dev call fPos = (retval, fPos)) ∨
      ∃ seek, enterIoctl call fPos = .inr (.ioctl seek fPos .check) ∧
        ∀ state, Finishes (ioctlStatement seek fPos) .check state
          (aesdUnlockedIoctl state.dev call fPos, state) := by
  unfold enterIoctl aesdUnlockedIoctl
  by_cases foreign : iocType call.cmd ≠ aesdIocMagic ∨ iocNr call.cmd > aesdcharIocMaxnr ∨
      aesdcharIocseekto ≠ call.cmd
  case pos => exact .inl ⟨_, if_pos foreign, fun _ => if_pos foreign⟩
  case neg =>
    simp only [foreign, if_false]
    cases call.arg with
    | none => exact .inl ⟨_, rfl, fun _ => rfl⟩
    | some seek =>
        by_cases beyond : maxWriteOperations ≤ seek.writeCmd.toNat
        case pos => exact .inl ⟨_, if_pos beyond, fun _ => if_pos beyond⟩
        case neg =>
          simp only [beyond, if_false]
          by_cases busy : call.lock = false
          case pos => exact .inl ⟨_, if_pos busy, fun _ => if_pos busy⟩
          case neg =>
            simp only [busy]
            exact .inr ⟨seek, rfl, finishes_ioctl seek fPos⟩

/-- Run without interruption, the statements of a call are the function of `Driver.Core`. -/
theorem implements_deviceCode (sign : CharSign) :
    Implements (deviceCode sign) (deviceCall sign) where
  early call result enters state := by
    cases call with
    | write call =>
        rcases enterWrite_cases sign call with ⟨retval, early, atomic⟩ | ⟨buf, entry, -⟩
        · cases early.symm.trans enters
          rw [deviceCall, atomic]
        · cases entry.symm.trans enters
    | read call fPos =>
        rcases enterRead_cases call fPos with ⟨retval, early, atomic⟩ | ⟨-, entry⟩
        · cases early.symm.trans enters
          rw [deviceCall, atomic]
        · cases entry.symm.trans enters
    | ioctl call fPos =>
        rcases enterIoctl_cases call fPos with ⟨retval, early, atomic⟩ | ⟨seek, entry, -⟩
        · cases early.symm.trans enters
          rw [deviceCall, atomic]
        · cases entry.symm.trans enters
  sections call locals enters state := by
    cases call with
    | write call =>
        rcases enterWrite_cases sign call with ⟨retval, early, -⟩ | ⟨buf, entry, atomic⟩
        · cases early.symm.trans enters
        · cases entry.symm.trans enters
          rw [deviceCall, atomic]
          exact (finishes_write state).map (deviceStatement_write sign call buf)
    | read call fPos =>
        rcases enterRead_cases call fPos with ⟨retval, early, -⟩ | ⟨gets, entry⟩
        · cases early.symm.trans enters
        · cases entry.symm.trans enters
          exact (finishes_read gets state fPos).map (deviceStatement_read sign call)
    | ioctl call fPos =>
        rcases enterIoctl_cases call fPos with ⟨retval, early, -⟩ | ⟨seek, entry, finishes⟩
        · cases early.symm.trans enters
        · cases entry.symm.trans enters
          exact (finishes state).map (deviceStatement_ioctl sign seek fPos)

/-! ## Any order of statements -/

/-- Calls whose statements come in any order behave like single steps, in the order in which
they obtain the mutex or return without it. A call that returns before another one is made
comes before it. -/
theorem deviceCalls_linearize (sign : CharSign) (start : DriverState)
    (steps : List (Step DeviceCall)) :
    Linearizes (deviceCall sign) start (system (deviceCode sign) start steps) ∧
      ∀ visited, visited <+: steps →
        (system (deviceCode sign) start visited).order <+:
          (system (deviceCode sign) start steps).order :=
  linearizes_run (implements_deviceCode sign) start steps

/-- No return keeps the mutex: in every state that can be reached, every call can still
return. -/
theorem deviceCalls_return (sign : CharSign) (start : DriverState)
    (steps : List (Step DeviceCall)) (number : Nat)
    (called : number < (system (deviceCode sign) start steps).tasks.length) :
    ∃ after call result,
      Sections.Continues (deviceCode sign) (system (deviceCode sign) start steps) after ∧
        after.tasks[number]? = some (.returned call result) :=
  exists_returned (implements_deviceCode sign) start steps called

/-- A read in the middle of a write that waits for its mutex. -/
theorem deviceCalls_return_read :
    ∃ after call result,
      Sections.Continues (deviceCode .signed) (system (deviceCode .signed) aesdInitModule
        [.call (.write (.granted [newline] 0)), .call (.read (.granted 1) 0), .advance 0,
          .advance 1]) after ∧
        after.tasks[1]? = some (.returned call result) :=
  deviceCalls_return .signed aesdInitModule _ 1 (by decide)

/-! ## Blocks under any order -/

theorem calls_writeStatement (sign : CharSign) (call : WriteCall) (buf : List UInt8)
    (locals : WriteLocal) (state : DriverState) :
    state.mem.calls <:+ (writeStatement sign call buf locals state).1.mem.calls := by
  cases locals with
  | allocate =>
      change _ <:+ (state.reserve sign call.grant buf.length).2.calls
      rw [(state.reserved sign call.grant buf.length).calls]
      exact List.suffix_append ..
  | copy =>
      dsimp only [writeStatement]
      split
      next => exact List.suffix_rfl
      next =>
        rw [Memory.calls_copyFromUser]
        exact List.suffix_cons ..
  | scan i =>
      dsimp only [writeStatement]
      split
      next => exact List.suffix_rfl
      next => exact List.suffix_rfl
  | evict returnBuff =>
      cases returnBuff with
      | none => exact List.suffix_rfl
      | some index =>
          dsimp only [writeStatement]
          split
          next => exact List.suffix_rfl
          next => exact List.suffix_rfl
  | free index =>
      change _ <:+ (state.mem.kfree (state.dev.circBuffer.slot index).buffptr).calls
      rw [Memory.calls_kfree]
      exact List.suffix_cons ..
  | complete | addEntry | addTotal | clear | reset | extend | errHandle =>
      exact List.suffix_rfl

theorem calls_readStatement (call : ReadCall) (locals : ReadLocal) (state : DriverState) :
    state.mem.calls <:+ (readStatement call locals state).1.mem.calls := by
  cases locals with
  | find | errHandle => exact List.suffix_rfl
  | test fPos tempBuffer offset =>
      cases tempBuffer with
      | none => exact List.suffix_rfl
      | some index =>
          dsimp only [readStatement]
          split
          next => exact List.suffix_rfl
          next => exact List.suffix_rfl
  | advance fPos index offset =>
      dsimp only [readStatement]
      split
      next => exact List.suffix_rfl
      next => exact List.suffix_rfl
  | copy fPos index offset tempBufferCount => exact List.suffix_cons ..

theorem state_ioctlStatement (seek : AesdSeekto) (fPos : Int) (locals : IoctlLocal)
    (state : DriverState) : (ioctlStatement seek fPos locals state).1 = state := by
  cases locals with
  | check =>
      dsimp only [ioctlStatement]
      split
      next => rfl
      next => rfl
  | loop i fpos =>
      dsimp only [ioctlStatement]
      split
      next =>
        split
        next => rfl
        next => rfl
      next => rfl
  | errHandle => rfl

/-- Statements only add to the record of calls. -/
theorem calls_deviceStatement (sign : CharSign) (locals : DeviceLocal) (state : DriverState) :
    state.mem.calls <:+ (deviceStatement sign locals state).1.mem.calls := by
  cases locals with
  | write call buf locals => exact calls_writeStatement sign call buf locals state
  | read call locals => exact calls_readStatement call locals state
  | ioctl seek fPos locals =>
      change _ <:+ (ioctlStatement seek fPos locals state).1.mem.calls
      rw [state_ioctlStatement]

/-- The invariant between two calls, with the record of what was given back. -/
def DriverState.Sound (state : DriverState) : Prop := state.WellFormed ∧ state.GivesBackValid

/-- A read gives nothing back. -/
theorem givesBackValid_aesdRead {state : DriverState} (sofar : state.GivesBackValid)
    (call : ReadCall) (fPos : Int) : (aesdRead state call fPos).state.GivesBackValid := by
  rcases enterRead_cases call fPos with ⟨retval, -, same⟩ | ⟨enters, -⟩
  · rw [same]
    exact sofar
  · obtain ⟨found, lookup⟩ : ∃ found, state.dev.circBuffer.aesdCircularBufferFindEntryOffsetForFpos
        (toSizeT fPos) = found := ⟨_, rfl⟩
    obtain ⟨tempBuffer, offset⟩ := found
    cases tempBuffer with
    | none =>
        rw [DriverState.aesdRead_of_not_found enters lookup]
        exact sofar
    | some index =>
        have copies : ∀ recorded ∈ (state.mem.copyToUser call.uncopied
            (state.dev.circBuffer.slot index).buffptr offset.toNat
            (DriverState.servedCount (state.dev.circBuffer.slot index) offset
              call.count).toNat).2.2.calls, recorded.PointerValid := by
          intro recorded member
          rcases List.mem_cons.mp member with rfl | earlier
          · trivial
          · exact sofar recorded earlier
        rw [DriverState.aesdRead_of_found enters lookup]
        dsimp only
        split
        next => exact sofar
        next =>
          split
          next => exact copies
          next => exact copies

theorem sound_deviceCall (sign : CharSign) (call : DeviceCall) (state : DriverState)
    (sound : state.Sound) : (deviceCall sign call state).2.Sound := by
  cases call with
  | write call =>
      exact ⟨wellFormed_writeStep sign state call sound.1,
        givesBackValid_writeStep sign state call sound.1 sound.2⟩
  | read call fPos =>
      exact ⟨sound.1.aesdRead call fPos, givesBackValid_aesdRead sound.2 call fPos⟩
  | ioctl => exact sound

/-- In every order of statements, each pointer given to `kfree` or `krealloc` is valid at that
moment, and whenever nobody has the mutex the slots hold valid pointers and share no block. -/
theorem blocks_deviceCalls (sign : CharSign) (steps : List (Step DeviceCall)) :
    let reached := system (deviceCode sign) aesdInitModule steps
    reached.shared.GivesBackValid ∧ (reached.owner = none → reached.shared.WellFormed) := by
  have initially : aesdInitModule.Sound :=
    ⟨DriverState.wellFormed_init, by
      simp [DriverState.GivesBackValid, aesdInitModule, Memory.empty]⟩
  have kept := sound_deviceCall sign
  intro reached
  constructor
  · apply Sections.invariant_always (implements_deviceCode sign) DriverState.Sound
      DriverState.GivesBackValid kept (fun _ sound => sound.2) ?_ initially
    intro locals shared valid recorded member
    exact valid recorded ((calls_deviceStatement sign locals shared).mem member)
  · intro free
    exact (invariant_free (implements_deviceCode sign) DriverState.Sound kept initially steps
      free).1

end Aesd
