import Aesd.Driver.Core

/-!
# Receiving a packet

The receive loop of `thread_socket`. It takes chunks from the client until one
has a newline, and stores each at an offset it derives from the number of chunks
so far. Every chunk comes with the outcome of the `realloc` that follows it. The
lengths are kept in `int`, so a computation that leaves its range ends the model
with no result.
-/

namespace Aesd

open KernelMemory MachineInt

/-- `INIT_BUF_SIZE`. -/
def initBufSize : Nat := 1024

/-- `memcpy` to an offset of a buffer. What falls outside of the buffer is lost. -/
def memcpy (buffer : List Cell) (offset : Nat) (bytes : List UInt8) : List Cell :=
  (buffer.take offset ++ bytes.map some ++ buffer.drop (offset + bytes.length)).take
    buffer.length

/-- A buffer that `realloc` has resized. New bytes are not known. -/
def resize (buffer : List Cell) (size : Nat) : List Cell :=
  buffer.take size ++ List.replicate (size - buffer.length) none

/-- `storage_buffer`, `storage_buffer_size` and `storage_buffer_size_cnt`. -/
structure ReceiveLocals where
  storageBuffer : List Cell
  storageBufferSize : Int
  storageBufferSizeCnt : Int
  deriving DecidableEq

/-- The locals when the loop is entered, after a successful `malloc`. -/
def ReceiveLocals.init : ReceiveLocals := ⟨List.replicate initBufSize none, initBufSize, 1⟩

/-- How one round of the loop ends: with the next `recv`, or with `complete_flag` set,
the packet in the buffer and `bytes_to_write`. -/
inductive ChunkResult where
  | more (locals : ReceiveLocals)
  | complete (storageBuffer : List Cell) (bytesToWrite : Int)
  deriving DecidableEq

/-- One round of the loop, with the chunk `recv` has stored. -/
def receiveChunk (locals : ReceiveLocals) (chunk : List UInt8) (reallocated : Bool) :
    Option ChunkResult := do
  let offset ← checkInt32 ((locals.storageBufferSizeCnt - 1) * initBufSize)
  match chunk.findIdx? (· = newline) with
  | some i =>
      let actualBytesRcvd := i + 1
      let bytesToWrite ← checkInt32 (offset + actualBytesRcvd)
      return .complete
        (memcpy locals.storageBuffer offset.toNat (chunk.take actualBytesRcvd)) bytesToWrite
  | none =>
      let storageBuffer := memcpy locals.storageBuffer offset.toNat chunk
      let size ← checkInt32 (locals.storageBufferSize + initBufSize)
      if reallocated then
        return .more ⟨resize storageBuffer size.toNat, size, locals.storageBufferSizeCnt + 1⟩
      else
        return .more { locals with storageBuffer }

/-- How the loop ends: `recv` returns no bytes, or a packet is complete. -/
inductive ReceiveExit where
  | disconnected
  | complete (storageBuffer : List Cell) (bytesToWrite : Int)
  deriving DecidableEq

/-- The receive loop of `thread_socket` over the chunks `recv` delivers, each with the
outcome of the `realloc` after it. -/
def receiveLoop (locals : ReceiveLocals) : List (List UInt8 × Bool) → Option ReceiveExit
  | [] => some .disconnected
  | (chunk, reallocated) :: chunks => do
      match ← receiveChunk locals chunk reallocated with
      | .more locals => receiveLoop locals chunks
      | .complete storageBuffer bytesToWrite =>
          return .complete storageBuffer bytesToWrite

/-! ## Buffers -/

@[simp] theorem length_memcpy (buffer : List Cell) (offset : Nat) (bytes : List UInt8) :
    (memcpy buffer offset bytes).length = buffer.length := by
  simp [memcpy]
  omega

/-- A copy into the buffer leaves what is before it, and puts its bytes. -/
theorem take_memcpy {buffer : List Cell} {offset : Nat} {bytes : List UInt8}
    (inside : offset + bytes.length ≤ buffer.length) :
    (memcpy buffer offset bytes).take (offset + bytes.length) =
      buffer.take offset ++ bytes.map some := by
  rw [memcpy, List.take_take, Nat.min_eq_left inside, List.take_left']
  rw [List.length_append, List.length_take, List.length_map]
  omega

theorem length_resize {buffer : List Cell} {size : Nat} (grows : buffer.length ≤ size) :
    (resize buffer size).length = size := by
  simp [resize, grows]

theorem take_resize {buffer : List Cell} {size count : Nat} (grows : buffer.length ≤ size)
    (inside : count ≤ buffer.length) : (resize buffer size).take count = buffer.take count := by
  rw [resize, List.take_of_length_le grows, List.take_append_of_le_length inside]

/-! ## Rounds of the loop -/

/-- The bytes of a stream up to and including its first newline. -/
def packet (stream : List UInt8) : List UInt8 :=
  stream.takeWhile (· ≠ newline) ++ [newline]

theorem packet_append {line : List UInt8} (missing : newline ∉ line) (rest : List UInt8) :
    packet (line ++ newline :: rest) = line ++ [newline] := by
  rw [packet, Lines.takeWhile_line missing]

/-- The packet of a stream whose first newline is in a known chunk. -/
theorem packet_chunks {before : List (List UInt8)} {line : List UInt8}
    (clear : ∀ chunk ∈ before, newline ∉ chunk) (missing : newline ∉ line) (rest : List UInt8)
    (later : List (List UInt8)) :
    packet (before ++ (line ++ newline :: rest) :: later).flatten =
      before.flatten ++ (line ++ [newline]) := by
  have clearBefore : newline ∉ before.flatten ++ line := by
    rw [List.mem_append, List.mem_flatten]
    rintro (⟨chunk, member, found⟩ | found)
    · exact clear chunk member found
    · exact missing found
  rw [List.flatten_append, List.flatten_cons, ← List.append_assoc, ← List.append_assoc,
    List.append_assoc (before.flatten ++ line), List.cons_append, packet_append clearBefore,
    List.append_assoc]

/-- The locals after `rounds` chunks without a newline whose `realloc` was successful,
whatever the lengths of the chunks. A failed `realloc` leaves the locals as they were. -/
structure Assembling (locals : ReceiveLocals) (rounds : Nat) : Prop where
  length : locals.storageBuffer.length = initBufSize * (rounds + 1)
  size : locals.storageBufferSize = initBufSize * (rounds + 1)
  cnt : locals.storageBufferSizeCnt = rounds + 1

theorem Assembling.init : Assembling .init 0 where
  length := by simp [ReceiveLocals.init]
  size := by simp [ReceiveLocals.init]
  cnt := by simp [ReceiveLocals.init]

/-- The number of rounds after which `storage_buffer_size + INIT_BUF_SIZE` still is an
`int`. -/
def maxRounds : Nat := 2 ^ 21 - 2

namespace Assembling

variable {locals : ReceiveLocals} {rounds : Nat}

theorem offset_value (assembling : Assembling locals rounds) :
    (locals.storageBufferSizeCnt - 1) * initBufSize = ((initBufSize * rounds : Nat) : Int) := by
  rw [assembling.cnt]
  unfold initBufSize
  omega

/-- The offset a round stores its chunk at. -/
theorem offset_eq (assembling : Assembling locals rounds) (few : rounds ≤ maxRounds) :
    checkInt32 ((locals.storageBufferSizeCnt - 1) * initBufSize) =
      some ((initBufSize * rounds : Nat) : Int) := by
  rw [assembling.offset_value]
  unfold maxRounds at few
  unfold initBufSize at *
  exact checkInt32_of_bounds (by omega) (by omega)

/-- The size a round asks `realloc` for. -/
theorem size_eq (assembling : Assembling locals rounds) (few : rounds < maxRounds) :
    checkInt32 (locals.storageBufferSize + initBufSize) =
      some ((initBufSize * (rounds + 2) : Nat) : Int) := by
  have value : locals.storageBufferSize + initBufSize =
      ((initBufSize * (rounds + 2) : Nat) : Int) := by
    rw [assembling.size]
    unfold initBufSize
    omega
  unfold maxRounds at few
  unfold initBufSize at *
  rw [value]
  exact checkInt32_of_bounds (by omega) (by omega)

/-- A chunk without a newline, as long as the size stays an `int`. -/
theorem receiveChunk_more (assembling : Assembling locals rounds) {chunk : List UInt8}
    (missing : newline ∉ chunk) (few : rounds < maxRounds) :
    ∃ next, receiveChunk locals chunk true = some (.more next) ∧
      Assembling next (rounds + 1) ∧
      (chunk.length = initBufSize →
        next.storageBuffer.take (initBufSize * (rounds + 1)) =
          locals.storageBuffer.take (initBufSize * rounds) ++ chunk.map some) := by
  have length := assembling.length
  have grows : (memcpy locals.storageBuffer (initBufSize * rounds) chunk).length ≤
      initBufSize * (rounds + 2) := by
    rw [length_memcpy, length]
    exact Nat.mul_le_mul_left _ (by omega)
  refine ⟨⟨resize (memcpy locals.storageBuffer (initBufSize * rounds) chunk)
    (initBufSize * (rounds + 2)), (initBufSize * (rounds + 2) : Nat),
    locals.storageBufferSizeCnt + 1⟩, ?_, ⟨length_resize grows, ?_, ?_⟩, fun full => ?_⟩
  · simp only [receiveChunk, assembling.offset_eq few.le, assembling.size_eq few,
      Lines.findIdx?_of_notMem missing, Option.bind_eq_bind, Option.bind_some, Int.toNat_natCast,
      if_true, pure]
  · unfold initBufSize
    dsimp only
    omega
  · dsimp only
    rw [assembling.cnt]
    omega
  · have here : initBufSize * (rounds + 1) = initBufSize * rounds + chunk.length := by
      rw [full, Nat.mul_succ]
    rw [take_resize grows (by rw [length_memcpy, length]), here]
    exact take_memcpy (by rw [length, here])

/-- A chunk without a newline whose `realloc` fails: the next one goes to the same offset. -/
theorem receiveChunk_stuck (assembling : Assembling locals rounds) {chunk : List UInt8}
    (missing : newline ∉ chunk) (few : rounds < maxRounds) :
    ∃ next, receiveChunk locals chunk false = some (.more next) ∧ Assembling next rounds := by
  refine ⟨{ locals with
      storageBuffer := memcpy locals.storageBuffer (initBufSize * rounds) chunk }, ?_,
    ⟨by rw [length_memcpy, assembling.length], assembling.size, assembling.cnt⟩⟩
  simp only [receiveChunk, assembling.offset_eq few.le, assembling.size_eq few,
    Lines.findIdx?_of_notMem missing, Option.bind_eq_bind, Option.bind_some, Int.toNat_natCast,
    Bool.false_eq_true, if_false, pure]

/-- Once the size is as large as it gets, the next round overflows. -/
theorem receiveChunk_overflow (assembling : Assembling locals rounds) {chunk : List UInt8}
    (missing : newline ∉ chunk) (last : rounds = maxRounds) (reallocated : Bool) :
    receiveChunk locals chunk reallocated = none := by
  have overflow : checkInt32 (locals.storageBufferSize + initBufSize) = none := by
    have many := last.ge
    clear last
    unfold maxRounds at many
    rw [assembling.size]
    exact checkInt32_of_le (by unfold initBufSize; omega)
  simp only [receiveChunk, assembling.offset_eq last.le, overflow,
    Lines.findIdx?_of_notMem missing, Option.bind_eq_bind, Option.bind_some, Option.bind_none]

/-- A round without a newline that does not overflow. -/
theorem exists_next (assembling : Assembling locals rounds) {chunk : List UInt8}
    (missing : newline ∉ chunk) (few : rounds < maxRounds) (reallocated : Bool) :
    ∃ next, receiveChunk locals chunk reallocated = some (.more next) ∧
      Assembling next (rounds + reallocated.toNat) := by
  cases reallocated with
  | true =>
      obtain ⟨next, received, advanced, -⟩ := assembling.receiveChunk_more missing few
      exact ⟨next, received, advanced⟩
  | false => exact assembling.receiveChunk_stuck missing few

/-- The chunk with the newline completes the packet. -/
theorem receiveChunk_complete (assembling : Assembling locals rounds) {line rest : List UInt8}
    (missing : newline ∉ line) (small : (line ++ newline :: rest).length ≤ initBufSize)
    (few : rounds ≤ maxRounds) (reallocated : Bool) :
    ∃ storageBuffer, receiveChunk locals (line ++ newline :: rest) reallocated =
        some (.complete storageBuffer (initBufSize * rounds + (line.length + 1) : Nat)) ∧
      initBufSize * rounds + (line.length + 1) ≤ storageBuffer.length ∧
      storageBuffer.take (initBufSize * rounds + (line.length + 1)) =
        locals.storageBuffer.take (initBufSize * rounds) ++
          (line ++ [newline]).map some := by
  have length := assembling.length
  have taken : (line ++ newline :: rest).take (line.length + 1) = line ++ [newline] := by
    rw [List.append_cons, List.take_left' (by simp)]
  have ending : checkInt32 (((initBufSize * rounds : Nat) : Int) + (line.length + 1 : Nat)) =
      some ((initBufSize * rounds + (line.length + 1) : Nat) : Int) := by
    rw [List.length_append, List.length_cons] at small
    unfold maxRounds at few
    unfold initBufSize at *
    rw [← Int.natCast_add]
    exact checkInt32_of_bounds (by omega) (by omega)
  have inside : initBufSize * rounds + (line ++ [newline]).length ≤
      locals.storageBuffer.length := by
    rw [length, Nat.mul_succ]
    simp only [List.length_append, List.length_cons, List.length_nil] at small ⊢
    omega
  refine ⟨memcpy locals.storageBuffer (initBufSize * rounds) (line ++ [newline]), ?_, ?_, ?_⟩
  · rw [receiveChunk, assembling.offset_eq few]
    simp only [Option.bind_eq_bind, Option.bind_some]
    rw [Lines.findIdx?_line missing]
    dsimp only
    rw [taken, ending, Int.toNat_natCast]
    rfl
  · simpa using inside
  · simpa using take_memcpy inside

end Assembling

/-! ## Long lines -/

/-- The size stays an `int` up to the last of these chunks without a newline, after
`rounds` successful `realloc`s. The outcome after the last one no longer matters. -/
def SizesFit (rounds : Nat) (before : List (List UInt8 × Bool)) : Prop :=
  before = [] ∨ rounds + before.dropLast.countP (·.2) < maxRounds

theorem sizesFit_cons (rounds : Nat) (chunk : List UInt8 × Bool)
    (before : List (List UInt8 × Bool)) :
    SizesFit rounds (chunk :: before) ↔
      rounds < maxRounds ∧ SizesFit (rounds + chunk.2.toNat) before := by
  cases before with
  | nil => simp [SizesFit]
  | cons other before =>
      have first : (chunk :: (other :: before).dropLast).countP (·.2) =
          (other :: before).dropLast.countP (·.2) + chunk.2.toNat := by
        rw [List.countP_cons]
        cases chunk.2 <;> rfl
      simp only [SizesFit, List.dropLast_cons_cons, first, reduceCtorEq, false_or]
      omega

/-- If the size does not stay an `int`, the loop has no result. -/
theorem receiveLoop_overflow {locals : ReceiveLocals} {rounds : Nat}
    (assembling : Assembling locals rounds) {before : List (List UInt8 × Bool)}
    (clear : ∀ chunk ∈ before, newline ∉ chunk.1) (within : rounds ≤ maxRounds)
    (overflows : ¬SizesFit rounds before) (later : List (List UInt8 × Bool)) :
    receiveLoop locals (before ++ later) = none := by
  induction before generalizing locals rounds with
  | nil => exact absurd (.inl rfl) overflows
  | cons chunk before ih =>
      obtain ⟨chunk, reallocated⟩ := chunk
      have missing := clear _ List.mem_cons_self
      rw [sizesFit_cons] at overflows
      rw [List.cons_append, receiveLoop]
      by_cases few : rounds < maxRounds
      · obtain ⟨middle, received, advanced⟩ := assembling.exists_next missing few reallocated
        rw [received]
        exact ih advanced (fun other member => clear other (List.mem_cons_of_mem _ member))
          (by cases reallocated <;> simp only [Bool.toNat_true, Bool.toNat_false] <;> omega)
          fun rest => overflows ⟨few, rest⟩
      · rw [assembling.receiveChunk_overflow missing (by omega) reallocated]
        rfl

/-! ## Whole packets -/

/-- Chunks without a newline, as long as the size stays an `int`. The buffer then starts
with their bytes if they are full. -/
theorem receiveLoop_more {locals : ReceiveLocals} {rounds : Nat}
    (assembling : Assembling locals rounds) {before : List (List UInt8)}
    (clear : ∀ chunk ∈ before, newline ∉ chunk)
    (few : rounds + before.length ≤ maxRounds) (later : List (List UInt8 × Bool)) :
    ∃ next, receiveLoop locals (before.map (·, true) ++ later) = receiveLoop next later ∧
      Assembling next (rounds + before.length) ∧
      ((∀ chunk ∈ before, chunk.length = initBufSize) →
        next.storageBuffer.take (initBufSize * (rounds + before.length)) =
          locals.storageBuffer.take (initBufSize * rounds) ++ before.flatten.map some) := by
  induction before generalizing locals rounds with
  | nil => exact ⟨locals, rfl, assembling, fun _ => by simp⟩
  | cons chunk before ih =>
      rw [List.length_cons] at few
      obtain ⟨middle, received, advanced, bytes⟩ := assembling.receiveChunk_more
        (clear chunk List.mem_cons_self) (by omega)
      obtain ⟨next, looped, reached, rest⟩ := ih advanced
        (fun other member => clear other (List.mem_cons_of_mem _ member)) (by omega)
      have count : rounds + (chunk :: before).length = rounds + 1 + before.length := by
        rw [List.length_cons]
        omega
      rw [count]
      refine ⟨next, ?_, reached, fun full => ?_⟩
      · rw [List.map_cons, List.cons_append, receiveLoop, received]
        exact looped
      · rw [rest fun other member => full other (List.mem_cons_of_mem _ member),
          bytes (full chunk List.mem_cons_self), List.flatten_cons, List.map_append,
          List.append_assoc]

/-- The chunk with the newline ends the loop. If those before it are full, the first
`bytes_to_write` bytes of the buffer are the packet. -/
theorem receiveLoop_complete {before : List (List UInt8)} {line rest : List UInt8}
    (clear : ∀ chunk ∈ before, newline ∉ chunk) (missing : newline ∉ line)
    (small : (line ++ newline :: rest).length ≤ initBufSize) (few : before.length ≤ maxRounds)
    (reallocated : Bool) (later : List (List UInt8 × Bool)) :
    ∃ storageBuffer,
      receiveLoop .init
          (before.map (·, true) ++ (line ++ newline :: rest, reallocated) :: later) =
        some (.complete storageBuffer
          (initBufSize * before.length + (line.length + 1) : Nat)) ∧
      initBufSize * before.length + (line.length + 1) ≤ storageBuffer.length ∧
      ((∀ chunk ∈ before, chunk.length = initBufSize) →
        storageBuffer.take (initBufSize * before.length + (line.length + 1)) =
          (before.flatten ++ (line ++ [newline])).map some) := by
  obtain ⟨next, looped, reached, bytes⟩ := receiveLoop_more .init clear
    (by omega : 0 + before.length ≤ maxRounds)
    ((line ++ newline :: rest, reallocated) :: later)
  rw [Nat.zero_add] at reached bytes
  obtain ⟨storageBuffer, received, inside, stored⟩ :=
    reached.receiveChunk_complete missing small few reallocated
  refine ⟨storageBuffer, ?_, inside, fun full => ?_⟩
  · rw [looped, receiveLoop, received]
    rfl
  · rw [stored, bytes full, Nat.mul_zero, List.take_zero, List.nil_append, ← List.map_append]

/-- With every `realloc` successful, the loop ends with `complete_flag` set and the first
`bytes_to_write` bytes of the buffer are the packet, and nothing else. -/
def AssemblesPacket (chunks : List (List UInt8)) : Prop :=
  ∃ (storageBuffer : List Cell) (bytesToWrite : Nat),
    receiveLoop .init (chunks.map (·, true)) =
        some (.complete storageBuffer bytesToWrite) ∧
      bytesToWrite ≤ storageBuffer.length ∧
      storageBuffer.take bytesToWrite = (packet chunks.flatten).map some

/-- Every chunk before the one with the first newline is full, and there are not too
many of them for an `int`. -/
def FullBeforeNewline (chunks : List (List UInt8)) : Prop :=
  (∀ chunk ∈ chunks.takeWhile (newline ∉ ·), chunk.length = initBufSize) ∧
    (chunks.takeWhile (newline ∉ ·)).length ≤ maxRounds

instance (chunks : List (List UInt8)) : Decidable (FullBeforeNewline chunks) :=
  inferInstanceAs (Decidable (_ ∧ _))

/-- Packet assembly. For a stream with a newline that comes in chunks of at most
`INIT_BUF_SIZE` bytes, the loop assembles the packet if and only if all chunks before
the first newline are full and their sizes stay in the range of `int`. -/
theorem assemblesPacket_iff (chunks : List (List UInt8))
    (sizes : ∀ chunk ∈ chunks, 1 ≤ chunk.length ∧ chunk.length ≤ initBufSize)
    (present : newline ∈ chunks.flatten) : AssemblesPacket chunks ↔ FullBeforeNewline chunks := by
  obtain ⟨before, line, rest, later, rfl, clear, missing⟩ := Lines.exists_first_chunk present
  have small : ∀ chunk ∈ before, chunk.length ≤ initBufSize := fun chunk member =>
    (sizes chunk (by simp [member])).2
  have lastSmall := (sizes (line ++ newline :: rest) (by simp)).2
  rw [FullBeforeNewline, Lines.takeWhile_chunks clear, AssemblesPacket,
    packet_chunks clear missing, List.map_append, List.map_cons]
  by_cases few : before.length ≤ maxRounds
  · obtain ⟨storageBuffer, exit, inside, stored⟩ :=
      receiveLoop_complete clear missing lastSmall few true (later.map (·, true))
    constructor
    · rintro ⟨buffer, bytesToWrite, ended, within, same⟩
      rw [exit] at ended
      obtain ⟨rfl, count⟩ : storageBuffer = buffer ∧
          ((initBufSize * before.length + (line.length + 1) : Nat) : Int) = bytesToWrite := by
        simpa using ended
      refine ⟨(Lines.length_flatten_eq_iff small).mp ?_, few⟩
      have lengths := congrArg List.length same
      rw [List.length_take_of_le within, List.length_map, List.length_append,
        List.length_append, List.length_singleton] at lengths
      omega
    · rintro ⟨full, -⟩
      exact ⟨storageBuffer, _, exit, inside, stored full⟩
  · constructor
    · rintro ⟨buffer, bytesToWrite, ended, -⟩
      have overflows : ¬SizesFit 0 (before.map (·, true)) := by
        rw [SizesFit, List.map_eq_nil_iff, ← List.map_dropLast, List.countP_map,
          List.countP_eq_length.mpr (by simp), List.length_dropLast]
        rintro (rfl | fits)
        · simp at few
        · omega
      rw [receiveLoop_overflow .init (by simpa using clear) (Nat.zero_le _) overflows] at ended
      simp at ended
    · exact fun full => absurd full.2 few

/-- A packet of one full chunk and one more byte. -/
theorem assemblesPacket_full_chunk :
    AssemblesPacket [List.replicate 1024 97, [newline]] :=
  (assemblesPacket_iff [List.replicate 1024 97, [newline]] (by decide +kernel)
    (by decide +kernel)).mpr (by decide +kernel)

/-- The same two bytes in two chunks: the second goes to offset 1024. -/
theorem not_assemblesPacket_short_chunk : ¬AssemblesPacket [[97], [newline]] := by
  rintro ⟨buffer, bytesToWrite, ended, within, same⟩
  have count : receiveLoop .init ([[97], [newline]].map (·, true)) = some (.complete
      (memcpy (resize (memcpy (List.replicate 1024 none) 0 [97]) 2048) 1024 [newline]) 1025) := by
    decide +kernel
  rw [count] at ended
  have total := (ReceiveExit.complete.inj (Option.some.inj ended)).2
  have lengths := congrArg List.length same
  rw [List.length_take_of_le within] at lengths
  have two : ((packet [[97], [newline]].flatten).map some).length = 2 := by decide
  omega

end Aesd
