import Aesd.Library.CString
import Aesd.Server.Receive

/-!
# The request of a packet

What `thread_socket` makes of a complete packet: a packet that starts with
`AESDCHAR_IOCSEEKTO:` becomes an ioctl, every other packet is written. Both are
read from the memory at `storage_buffer`, where the packet has no terminating
zero byte, and the numbers of a seek are scanned into a structure on the stack
that nobody has initialised. So the request may depend on what is behind the
packet and on the stack, unless both numbers are in the packet.
-/

namespace Aesd

open KernelMemory CString

/-- `ioctl_str`. -/
def ioctlStr : List UInt8 :=
  ['A', 'E', 'S', 'D', 'C', 'H', 'A', 'R', '_', 'I', 'O', 'C', 'S', 'E', 'E', 'K', 'T', 'O',
    ':'].map fun character => .ofNat character.toNat

/-- The format `"%d,%d"`. -/
def seekFormat : List Directive := [.int, .literal 44, .int]

/-- A call of `thread_socket` on the device, before its outcomes are known. -/
inductive DeviceRequest where
  | write (bytes : List UInt8)
  | ioctl (seek : AesdSeekto)
  deriving DecidableEq, Repr

/-- The variable `seek` after `sscanf`, from what it was before. -/
def parseSeek (text : List UInt8) (seek : AesdSeekto) : AesdSeekto :=
  match sscanf seekFormat text with
  | [] => seek
  | [writeCmd] => { seek with writeCmd }
  | writeCmd :: writeCmdOffset :: _ => ⟨writeCmd, writeCmdOffset⟩

/-- The request for a packet of `bytesToWrite` bytes, from the memory at `storage_buffer`
and the initial contents of the variable `seek`. -/
def packetRequest (memory : List UInt8) (bytesToWrite : Nat) (seek : AesdSeekto) :
    DeviceRequest :=
  if strncmp memory ioctlStr ioctlStr.length = 0 then
    .ioctl (parseSeek (memory.drop ioctlStr.length) seek)
  else
    .write (memory.take bytesToWrite)

/-- The packet alone determines its request: neither the memory behind it nor the stack
have a part in it, and the values of an ioctl are two numbers of the packet. -/
structure DeterminesRequest (line : List UInt8) : Prop where
  independent : ∀ heap other seek otherSeek,
    packetRequest (line ++ newline :: heap) (line.length + 1) seek =
      packetRequest (line ++ newline :: other) (line.length + 1) otherSeek
  fromPacket : ∀ heap seek values,
    packetRequest (line ++ newline :: heap) (line.length + 1) seek = .ioctl values →
      sscanf seekFormat (line.drop ioctlStr.length) = [values.writeCmd, values.writeCmdOffset]

/-- Behind the prefix of a seek come two numbers. -/
def HasBothNumbers (line : List UInt8) : Prop :=
  ioctlStr <+: line → (sscanf seekFormat (line.drop ioctlStr.length)).length = 2

instance (line : List UInt8) : Decidable (HasBothNumbers line) :=
  inferInstanceAs (Decidable (_ → _))

/-- A packet without the prefix is written, and is all that is written. -/
theorem packetRequest_of_not_starts {line : List UInt8} (ordinary : ¬ioctlStr <+: line)
    (heap : List UInt8) (seek : AesdSeekto) :
    packetRequest (line ++ newline :: heap) (line.length + 1) seek =
      .write (line ++ [newline]) := by
  have differs : ¬strncmp (line ++ newline :: heap) ioctlStr ioctlStr.length = 0 := by
    rwa [strncmp_eq_zero_iff _ (by decide), Lines.prefix_line_iff (by decide)]
  rw [packetRequest, if_neg differs, List.append_cons, List.take_left' (by simp)]

/-- A packet with the prefix becomes an ioctl. The scan starts behind the prefix. -/
theorem packetRequest_of_starts {line : List UInt8} (starts : ioctlStr <+: line)
    (heap : List UInt8) (seek : AesdSeekto) :
    packetRequest (line ++ newline :: heap) (line.length + 1) seek =
      .ioctl (parseSeek (line.drop ioctlStr.length ++ newline :: heap) seek) := by
  have same : strncmp (line ++ newline :: heap) ioctlStr ioctlStr.length = 0 := by
    rwa [strncmp_eq_zero_iff _ (by decide), Lines.prefix_line_iff (by decide)]
  rw [packetRequest, if_pos same, List.drop_append_of_le_length starts.length_le]

/-- If both numbers are in the packet, the scan stores them. -/
theorem parseSeek_of_complete {text : List UInt8} {writeCmd writeCmdOffset : UInt32}
    (scanned : sscanf seekFormat text = [writeCmd, writeCmdOffset]) (heap : List UInt8)
    (seek : AesdSeekto) :
    parseSeek (text ++ newline :: heap) seek = ⟨writeCmd, writeCmdOffset⟩ := by
  have complete : (sscanf seekFormat text).length = seekFormat.count .int := by
    rw [scanned]
    rfl
  rw [parseSeek, sscanf_append complete (by decide), scanned]

/-- If one of them is missing, and nothing is behind the packet, the offset stays as it
was. -/
theorem writeCmdOffset_parseSeek {text : List UInt8}
    (missing : (sscanf seekFormat text).length < 2) (seek : AesdSeekto) :
    (parseSeek (text ++ [newline]) seek).writeCmdOffset = seek.writeCmdOffset := by
  rw [parseSeek, sscanf_append_space (by decide) (by decide) (by decide)]
  match values : sscanf seekFormat text with
  | [] => rfl
  | [_] => rfl
  | _ :: _ :: _ =>
      rw [values] at missing
      exact absurd missing (by simp)

/-- Noninterference. A packet determines its request if and only if it is no seek, or both
numbers come before its newline. -/
theorem determinesRequest_iff (line : List UInt8) :
    DeterminesRequest line ↔ HasBothNumbers line := by
  constructor
  · intro determined starts
    by_contra incomplete
    have most := length_sscanf_le seekFormat (line.drop ioctlStr.length)
    have missing : (sscanf seekFormat (line.drop ioctlStr.length)).length < 2 :=
      Nat.lt_of_le_of_ne most incomplete
    have same := determined.independent [] [] ⟨0, 0⟩ ⟨0, 1⟩
    rw [packetRequest_of_starts starts, packetRequest_of_starts starts] at same
    have offsets := congrArg AesdSeekto.writeCmdOffset (DeviceRequest.ioctl.inj same)
    rw [writeCmdOffset_parseSeek missing, writeCmdOffset_parseSeek missing] at offsets
    exact absurd offsets (by decide)
  · intro complete
    by_cases starts : ioctlStr <+: line
    · obtain ⟨writeCmd, writeCmdOffset, scanned⟩ := List.length_eq_two.mp (complete starts)
      have request := fun heap seek => packetRequest_of_starts starts heap seek
      simp only [parseSeek_of_complete scanned] at request
      refine ⟨fun heap other seek otherSeek => by rw [request, request],
        fun heap seek values issued => ?_⟩
      rw [request] at issued
      rw [← DeviceRequest.ioctl.inj issued, scanned]
    · have request := packetRequest_of_not_starts starts
      refine ⟨fun heap other seek otherSeek => by rw [request, request],
        fun heap seek values issued => ?_⟩
      rw [request] at issued
      exact absurd issued (by simp)

/-- `AESDCHAR_IOCSEEKTO:1` lacks the second number: the offset is what was on the stack. -/
theorem not_determinesRequest_one_number : ¬DeterminesRequest (ioctlStr ++ [49]) := by
  intro determined
  have same := determined.independent [] [] ⟨0, 0⟩ ⟨0, 7⟩
  revert same
  decide

/-- `AESDCHAR_IOCSEEKTO:` lacks both, and the scan goes on behind the newline. -/
example (seek : AesdSeekto) :
    packetRequest (ioctlStr ++ newline :: [49, 44, 50]) 20 seek = .ioctl ⟨1, 2⟩ := rfl

/-! ## From the receive loop -/

/-- The memory has the bytes of a buffer, as far as they are known. -/
def HoldsCells (memory : List UInt8) (buffer : List Cell) : Prop :=
  ∀ (index : Nat) (byte : UInt8),
    buffer[index]? = some (some byte) → memory[index]? = some byte

/-- A run of `thread_socket` that receives these chunks, with no failed `realloc`, can issue
the request. -/
def Issues (chunks : List (List UInt8)) (request : DeviceRequest) : Prop :=
  ∃ storageBuffer bytesToWrite memory seek,
    receiveLoop .init (chunks.map (·, true)) = some (.complete storageBuffer bytesToWrite) ∧
      HoldsCells memory storageBuffer ∧
      request = packetRequest memory bytesToWrite.toNat seek

/-- Where the buffer starts with known bytes, so does the memory. -/
theorem HoldsCells.exists_heap {memory : List UInt8} {buffer : List Cell} {bytes : List UInt8}
    (holds : HoldsCells memory buffer)
    (known : buffer.take bytes.length = bytes.map some) : ∃ heap, memory = bytes ++ heap := by
  have starts : bytes <+: memory := by
    rw [List.prefix_iff_getElem?]
    intro index inside
    apply holds
    rw [← List.getElem?_take_of_lt inside, known, List.getElem?_map,
      List.getElem?_eq_getElem inside]
    rfl
  obtain ⟨heap, whole⟩ := starts
  exact ⟨heap, whole.symm⟩

/-- The memory an assembled packet is read from: the packet, and then anything. -/
theorem Issues.exists_heap {chunks : List (List UInt8)} {request : DeviceRequest}
    (issues : Issues chunks request) (assembles : AssemblesPacket chunks) :
    let line := chunks.flatten.takeWhile (· ≠ newline)
    ∃ heap seek, request = packetRequest (line ++ newline :: heap) (line.length + 1) seek := by
  intro line
  obtain ⟨storageBuffer, bytesToWrite, memory, seek, ended, holds, rfl⟩ := issues
  obtain ⟨buffer, count, assembled, within, bytes⟩ := assembles
  rw [assembled] at ended
  obtain ⟨rfl, rfl⟩ := ReceiveExit.complete.inj (Option.some.inj ended)
  have length : count = (line ++ [newline]).length := by
    have lengths := congrArg List.length bytes
    rwa [List.length_take_of_le within, List.length_map] at lengths
  obtain ⟨heap, rfl⟩ := holds.exists_heap (length ▸ bytes)
  refine ⟨heap, seek, ?_⟩
  rw [Int.toNat_natCast, length, List.length_append, List.length_singleton, List.append_assoc,
    List.singleton_append]

/-- Two runs that assemble the same packet issue the same request, if the packet determines
it. -/
theorem Issues.eq {chunks others : List (List UInt8)} {request other : DeviceRequest}
    (issues : Issues chunks request) (issuesOther : Issues others other)
    (assembles : AssemblesPacket chunks) (assemblesOther : AssemblesPacket others)
    (same : packet chunks.flatten = packet others.flatten)
    (determined : DeterminesRequest (chunks.flatten.takeWhile (· ≠ newline))) :
    request = other := by
  have lines := List.append_cancel_right same
  obtain ⟨heap, seek, rfl⟩ := issues.exists_heap assembles
  obtain ⟨otherHeap, otherSeek, rfl⟩ := issuesOther.exists_heap assemblesOther
  rw [← lines]
  exact determined.independent heap otherHeap seek otherSeek

end Aesd
