import Aesd.Driver.Seek
import Aesd.Server.Request

/-!
# Seeks to large numbers

A seek names its command and its offset in decimal, and the server reads them with `%d`
into fields of 32 bits. The driver checks the fields against the device, so it does not see
that a number was too large for its field: the request is then one to another command or
another byte, and may be granted.
-/

namespace Aesd

open CString MachineInt

/-- The packet `AESDCHAR_IOCSEEKTO:X,Y`, without its newline. -/
def seekLine (x y : Nat) : List UInt8 := ioctlStr ++ (decimal x ++ 44 :: decimal y)

/-- What the server makes of the two numbers. -/
def storedSeek (x y : Nat) : AesdSeekto := ⟨storedInt x, storedInt y⟩

/-- The ioctl of the server with these values, and the outcomes of the copy and of the
lock. -/
def seekCall (seek : AesdSeekto) (copied lock : Bool) : IoctlCall :=
  ⟨aesdcharIocseekto, if copied then some seek else none, lock⟩

/-- The request for `X,Y` is refused, and the position stays as it was. -/
def Refuses (dev : AesdDev) (call : IoctlCall) (fPos : Int) : Prop :=
  (aesdUnlockedIoctl dev call fPos).1 < 0 ∧ (aesdUnlockedIoctl dev call fPos).2 = fPos

/-- Whatever is behind the packet and on the stack, the packet causes an ioctl. Either it
goes to command `X` and byte `Y` exactly, or it is refused; and it is refused if there is no
slot `X` or no byte `Y` in it. -/
def SeeksExactly (dev : AesdDev) (copied lock : Bool) (fPos : Int) (x y : Nat) : Prop :=
  ∀ heap initial, ∃ seek,
    packetRequest (seekLine x y ++ newline :: heap) ((seekLine x y).length + 1) initial =
        .ioctl seek ∧
      ((seek.writeCmd.toNat = x ∧ seek.writeCmdOffset.toNat = y ∧
          aesdUnlockedIoctl dev (seekCall seek copied lock) fPos =
            (0, toInt32 (dev.circBuffer.slotPrefix x + y))) ∨
        Refuses dev (seekCall seek copied lock) fPos) ∧
      (maxWriteOperations ≤ x ∨ (dev.circBuffer.slot x).size.toNat ≤ y →
        Refuses dev (seekCall seek copied lock) fPos)

/-- The two numbers, whatever their sizes, reach the fields. -/
theorem sscanf_seekLine (x y : Nat) :
    sscanf seekFormat ((seekLine x y).drop ioctlStr.length) = [storedInt x, storedInt y] := by
  have first : scanInt (decimal x ++ 44 :: decimal y) = some (storedInt x, 44 :: decimal y) :=
    scanInt_append (scanInt_decimal x) (by decide) (decimal y)
  rw [seekLine, List.drop_left]
  simp [seekFormat, sscanf, first, scanInt_decimal]

/-- The ioctl of the packet. -/
theorem packetRequest_seekLine (x y : Nat) (heap : List UInt8) (initial : AesdSeekto) :
    packetRequest (seekLine x y ++ newline :: heap) ((seekLine x y).length + 1) initial =
      .ioctl (storedSeek x y) := by
  have starts : ioctlStr <+: seekLine x y := List.prefix_append _ _
  rw [packetRequest_of_starts starts, parseSeek_of_complete (sscanf_seekLine x y), storedSeek]

/-- An ioctl whose copy or lock fails, or that the driver does not accept, is refused. -/
theorem refuses_seekCall {dev : AesdDev} {seek : AesdSeekto} {copied lock : Bool}
    (fails : ¬(copied = true ∧ lock = true ∧ AcceptsSeek dev seek)) (fPos : Int) :
    Refuses dev (seekCall seek copied lock) fPos := by
  by_cases complete : copied = true ∧ lock = true
  · obtain ⟨rfl, rfl⟩ := complete
    have refused : ¬AcceptsSeek dev seek := fun accepts => fails ⟨rfl, rfl, accepts⟩
    have exit : aesdUnlockedIoctl dev (seekCall seek true true) fPos = (-errnoEinval, fPos) := by
      rw [seekCall, if_pos rfl, aesdUnlockedIoctl_locked, if_neg refused]
    rw [Refuses, exit]
    exact ⟨show -errnoEinval < 0 by decide, rfl⟩
  · rcases aesdUnlockedIoctl_cases dev (seekCall seek copied lock) fPos with
      ⟨retval, negative, exit⟩ | ⟨locked, -⟩
    · rw [Refuses, exit]
      exact ⟨negative, rfl⟩
    · obtain rfl : copied = false := by
        by_contra isCopied
        exact complete ⟨by simpa using isCopied, locked⟩
      have exit : aesdUnlockedIoctl dev (seekCall seek false lock) fPos = (-errnoEfault, fPos) :=
        aesdUnlockedIoctl_uncopied dev lock fPos
      rw [Refuses, exit]
      exact ⟨show -errnoEfault < 0 by decide, rfl⟩

theorem toNat_storedInt_of_lt {value : Nat} (small : value < 2 ^ 32) :
    (storedInt value).toNat = value := by
  rw [storedInt, UInt32.toNat_ofNat']
  omega

/-- A number that the field holds is one of 32 bits. -/
theorem lt_of_toNat_storedInt {value : Nat} (same : (storedInt value).toNat = value) :
    value < 2 ^ 32 := same ▸ (storedInt value).toNat_lt

/-- No aliasing. A seek to `X,Y`, from a packet that has been assembled whole, goes there exactly
or is refused, if and only if the driver refuses the request that the server makes of it, or both
numbers are of 32 bits. -/
theorem seeksExactly_iff (dev : AesdDev) (copied lock : Bool) (fPos : Int) (x y : Nat) :
    SeeksExactly dev copied lock fPos x y ↔
      ¬(copied = true ∧ lock = true ∧ AcceptsSeek dev (storedSeek x y)) ∨
        x < 2 ^ 32 ∧ y < 2 ^ 32 := by
  constructor
  · intro exact
    by_cases fails : ¬(copied = true ∧ lock = true ∧ AcceptsSeek dev (storedSeek x y))
    · exact .inl fails
    · obtain ⟨rfl, rfl, accepts⟩ := not_not.mp fails
      obtain ⟨seek, request, outcome, -⟩ := exact [] ⟨0, 0⟩
      obtain rfl := DeviceRequest.ioctl.inj ((packetRequest_seekLine x y [] ⟨0, 0⟩).symm.trans
        request)
      rcases outcome with ⟨first, second, -⟩ | ⟨negative, -⟩
      · exact .inr ⟨lt_of_toNat_storedInt first, lt_of_toNat_storedInt second⟩
      · rw [seekCall, if_pos rfl, aesdUnlockedIoctl_locked, if_pos accepts] at negative
        exact absurd negative (Int.lt_irrefl 0)
  · intro condition heap initial
    refine ⟨storedSeek x y, packetRequest_seekLine x y heap initial, ?_⟩
    by_cases fails : ¬(copied = true ∧ lock = true ∧ AcceptsSeek dev (storedSeek x y))
    · exact ⟨.inr (refuses_seekCall fails fPos), fun _ => refuses_seekCall fails fPos⟩
    · obtain ⟨small, otherSmall⟩ := condition.resolve_left fails
      obtain ⟨rfl, rfl, accepts⟩ := not_not.mp fails
      have first : (storedSeek x y).writeCmd.toNat = x := toNat_storedInt_of_lt small
      have second : (storedSeek x y).writeCmdOffset.toNat = y := toNat_storedInt_of_lt otherSmall
      refine ⟨.inl ⟨first, second, ?_⟩, fun outside => ?_⟩
      · rw [seekCall, if_pos rfl, aesdUnlockedIoctl_locked, if_pos accepts, first, second]
      · obtain ⟨inside, inRange, -⟩ := accepts
        rw [first] at inside inRange
        rw [second] at inRange
        omega

/-- On a device with the one command `a\n`, a seek to command `2 ^ 32` moves the position from
byte 1 to byte 0. -/
theorem not_seeksExactly_wrapped :
    ¬SeeksExactly (writeStep .signed aesdInitModule (.granted [97, newline] 0)).dev true true 1
      4294967296 0 := by
  intro exact
  obtain ⟨seek, request, -, refused⟩ := exact [] ⟨0, 0⟩
  obtain rfl : storedSeek 4294967296 0 = seek :=
    DeviceRequest.ioctl.inj ((packetRequest_seekLine ..).symm.trans request)
  have negative := (refused (.inl (by decide))).1
  exact absurd negative (by decide)

end Aesd
