import Aesd.Server.Receive

/-!
# Receiving under memory pressure

What the receive loop makes of failed `realloc`s and of streams without end. A
chunk whose `realloc` fails is overwritten by the next one, since the loop goes on
with the old counter. Each successful `realloc` adds to a size that nothing
bounds, so in a long enough line the size leaves the range of `int`. Both depend
on the outcomes alone, and not on the bytes.
-/

namespace Aesd

open KernelMemory MachineInt

/-- One round stays in bounds: its `int` computations have results, and its copy goes into
the buffer as large as it is now. -/
def SafeRound (locals : ReceiveLocals) (chunk : List UInt8) : Prop :=
  let offset := (locals.storageBufferSizeCnt - 1) * initBufSize
  InInt32 offset ∧ 0 ≤ offset ∧
    match chunk.findIdx? (· = newline) with
    | some i =>
        InInt32 (offset + (i + 1 : Nat)) ∧ offset + (i + 1 : Nat) ≤ locals.storageBuffer.length
    | none =>
        InInt32 (locals.storageBufferSize + initBufSize) ∧
          offset + chunk.length ≤ locals.storageBuffer.length

/-- Every round the loop comes to stays in bounds. -/
def SafeLoop (locals : ReceiveLocals) : List (List UInt8 × Bool) → Prop
  | [] => True
  | (chunk, reallocated) :: chunks =>
      SafeRound locals chunk ∧
        ∀ next, receiveChunk locals chunk reallocated = some (.more next) → SafeLoop next chunks

/-- The chunks before the one with the first newline. -/
def beforeNewline (chunks : List (List UInt8 × Bool)) : List (List UInt8 × Bool) :=
  chunks.takeWhile (newline ∉ ·.1)

/-- A size that stays an `int` leaves room for the chunk with the newline. -/
theorem SizesFit.count_le {rounds : Nat} {before : List (List UInt8 × Bool)}
    (fits : SizesFit rounds before) (within : rounds ≤ maxRounds) :
    rounds + before.countP (·.2) ≤ maxRounds := by
  rcases fits with rfl | fits
  · simpa using within
  · have last : before.countP (·.2) ≤ before.dropLast.countP (·.2) + 1 := by
      rcases List.eq_nil_or_concat' before with rfl | ⟨others, chunk, rfl⟩
      · simp
      · rw [List.dropLast_concat, List.countP_append]
        exact Nat.add_le_add_left List.countP_le_length _
    omega

namespace Assembling

variable {locals : ReceiveLocals} {rounds : Nat}

/-- The offset of a round, and what is left of the buffer behind it. -/
theorem offset_bounds (assembling : Assembling locals rounds) (within : rounds ≤ maxRounds) :
    (locals.storageBufferSizeCnt - 1) * initBufSize = ((initBufSize * rounds : Nat) : Int) ∧
      InInt32 ((locals.storageBufferSizeCnt - 1) * initBufSize) ∧
      locals.storageBuffer.length = initBufSize * rounds + initBufSize := by
  refine ⟨assembling.offset_value, (checkInt32_eq_some_iff _).mp ?_, by
    rw [assembling.length, Nat.mul_succ]⟩
  rw [assembling.offset_eq within, assembling.offset_value]

/-- A round without a newline stays in bounds if the size it asks for is an `int`. -/
theorem safeRound_more_iff (assembling : Assembling locals rounds) {chunk : List UInt8}
    (missing : newline ∉ chunk) (small : chunk.length ≤ initBufSize)
    (within : rounds ≤ maxRounds) : SafeRound locals chunk ↔ rounds < maxRounds := by
  obtain ⟨value, offset, room⟩ := assembling.offset_bounds within
  have asked : InInt32 (locals.storageBufferSize + initBufSize) ↔ rounds < maxRounds := by
    rw [assembling.size]
    unfold InInt32 maxRounds initBufSize
    omega
  simp only [SafeRound, Lines.findIdx?_of_notMem missing, asked]
  constructor
  · exact fun safe => safe.2.2.1
  · intro few
    exact ⟨offset, by omega, few, by omega⟩

/-- The round with the newline stays in bounds. -/
theorem safeRound_complete (assembling : Assembling locals rounds) {line rest : List UInt8}
    (missing : newline ∉ line) (small : (line ++ newline :: rest).length ≤ initBufSize)
    (within : rounds ≤ maxRounds) : SafeRound locals (line ++ newline :: rest) := by
  obtain ⟨value, offset, room⟩ := assembling.offset_bounds within
  rw [List.length_append, List.length_cons] at small
  have ending : InInt32 ((locals.storageBufferSizeCnt - 1) * initBufSize +
      (line.length + 1 : Nat)) := by
    rw [value]
    unfold maxRounds at within
    unfold InInt32
    unfold initBufSize at *
    omega
  simp only [SafeRound, Lines.findIdx?_line missing]
  exact ⟨offset, by omega, ending, by omega⟩

/-- The rounds of the loop stay in bounds as long as the size does. -/
theorem safeLoop_iff (assembling : Assembling locals rounds) (within : rounds ≤ maxRounds)
    {chunks : List (List UInt8 × Bool)}
    (small : ∀ chunk ∈ chunks, chunk.1.length ≤ initBufSize) :
    SafeLoop locals chunks ↔ SizesFit rounds (beforeNewline chunks) := by
  induction chunks generalizing locals rounds with
  | nil => simp [SafeLoop, SizesFit, beforeNewline]
  | cons chunk chunks ih =>
      obtain ⟨chunk, reallocated⟩ := chunk
      have here : chunk.length ≤ initBufSize := small _ List.mem_cons_self
      by_cases found : newline ∈ chunk
      · obtain ⟨line, rest, rfl, missing⟩ := List.eq_append_cons_of_mem found
        obtain ⟨storageBuffer, received, -⟩ :=
          assembling.receiveChunk_complete missing here within reallocated
        have safe := assembling.safeRound_complete missing here within
        simp [SafeLoop, safe, received, SizesFit, beforeNewline]
      · have tail : beforeNewline ((chunk, reallocated) :: chunks) =
            (chunk, reallocated) :: beforeNewline chunks :=
          List.takeWhile_cons_of_pos (by simpa using found)
        rw [SafeLoop, assembling.safeRound_more_iff found here within, tail, sizesFit_cons]
        refine and_congr_right fun few => ?_
        obtain ⟨next, received, advanced⟩ := assembling.exists_next found few reallocated
        have reached := ih advanced
          (by cases reallocated <;> simp only [Bool.toNat_true, Bool.toNat_false] <;> omega)
          fun other member => small other (List.mem_cons_of_mem _ member)
        rw [← reached, received]
        simp

/-- Chunks without a newline, as long as the size stays an `int`. -/
theorem receiveLoop_before (assembling : Assembling locals rounds)
    {before : List (List UInt8 × Bool)} (clear : ∀ chunk ∈ before, newline ∉ chunk.1)
    (fits : SizesFit rounds before) (later : List (List UInt8 × Bool)) :
    ∃ next, receiveLoop locals (before ++ later) = receiveLoop next later ∧
      Assembling next (rounds + before.countP (·.2)) := by
  induction before generalizing locals rounds with
  | nil => exact ⟨locals, rfl, assembling⟩
  | cons chunk before ih =>
      obtain ⟨chunk, reallocated⟩ := chunk
      obtain ⟨few, rest⟩ := (sizesFit_cons ..).mp fits
      obtain ⟨middle, received, advanced⟩ := assembling.exists_next
        (clear _ List.mem_cons_self) few reallocated
      obtain ⟨next, looped, reached⟩ := ih advanced
        (fun other member => clear other (List.mem_cons_of_mem _ member)) rest
      have count : rounds + ((chunk, reallocated) :: before).countP (·.2) =
          rounds + reallocated.toNat + before.countP (·.2) := by
        rw [List.countP_cons, Nat.add_assoc]
        cases reallocated <;> simp [Nat.add_comm]
      refine ⟨next, ?_, count ▸ reached⟩
      rw [List.cons_append, receiveLoop, received]
      exact looped

end Assembling

/-! ## Packets -/

/-- The loop has a result, and if it is a packet to issue a request for, then the first
`bytes_to_write` bytes of the buffer are the packet. -/
def KeepsPacket (chunks : List (List UInt8 × Bool)) : Prop :=
  ∃ exit, receiveLoop .init chunks = some exit ∧
    ∀ storageBuffer bytesToWrite, exit = .complete storageBuffer bytesToWrite →
      bytesToWrite ≤ storageBuffer.length ∧
        storageBuffer.take bytesToWrite.toNat = (packet (chunks.map (·.1)).flatten).map some

section Packet

variable {before : List (List UInt8 × Bool)} {line rest : List UInt8} {reallocated : Bool}
  {later : List (List UInt8 × Bool)}

theorem packet_before (clear : ∀ chunk ∈ before, newline ∉ chunk.1) (missing : newline ∉ line) :
    packet ((before ++ (line ++ newline :: rest, reallocated) :: later).map (·.1)).flatten =
      (before.map (·.1)).flatten ++ (line ++ [newline]) := by
  rw [List.map_append, List.map_cons]
  exact packet_chunks (List.forall_mem_map.mpr clear) missing rest _

theorem length_flatten_before (full : ∀ chunk ∈ before, chunk.1.length = initBufSize) :
    (before.map (·.1)).flatten.length = initBufSize * before.length := by
  have lengths : ∀ bytes ∈ before.map (·.1), bytes.length = initBufSize :=
    List.forall_mem_map.mpr full
  rw [(Lines.length_flatten_eq_iff fun bytes member => (lengths bytes member).le).mpr lengths,
    List.length_map]

/-- With every `realloc` in the middle successful, the packet is kept. -/
theorem keepsPacket_of_reallocated (full : ∀ chunk ∈ before, chunk.1.length = initBufSize)
    (clear : ∀ chunk ∈ before, newline ∉ chunk.1) (missing : newline ∉ line)
    (small : (line ++ newline :: rest).length ≤ initBufSize)
    (successful : ∀ chunk ∈ before, chunk.2 = true) (few : before.length ≤ maxRounds) :
    KeepsPacket (before ++ (line ++ newline :: rest, reallocated) :: later) := by
  have flags : (before.map (·.1)).map (·, true) = before := by
    have same : before.map ((·, true) ∘ (·.1)) = before.map id :=
      List.map_congr_left fun chunk member => Prod.ext rfl (successful chunk member).symm
    rw [List.map_map, same, List.map_id]
  obtain ⟨storageBuffer, exit, inside, stored⟩ := receiveLoop_complete
    (List.forall_mem_map.mpr clear : ∀ bytes ∈ before.map (·.1), newline ∉ bytes) missing small
    (by simpa using few) reallocated later
  rw [flags] at exit
  refine ⟨_, exit, ?_⟩
  rintro _ _ ⟨⟩
  refine ⟨Int.ofNat_le.mpr inside, ?_⟩
  rw [Int.toNat_natCast, stored (List.forall_mem_map.mpr full), packet_before clear missing]

/-- Each failed `realloc` leaves `INIT_BUF_SIZE` bytes out of `bytes_to_write`. -/
theorem reallocated_of_keepsPacket (full : ∀ chunk ∈ before, chunk.1.length = initBufSize)
    (clear : ∀ chunk ∈ before, newline ∉ chunk.1) (missing : newline ∉ line)
    (small : (line ++ newline :: rest).length ≤ initBufSize)
    (keeps : KeepsPacket (before ++ (line ++ newline :: rest, reallocated) :: later)) :
    (∀ chunk ∈ before, chunk.2 = true) ∧ before.length ≤ maxRounds := by
  obtain ⟨exit, ended, kept⟩ := keeps
  have fits : SizesFit 0 before := by
    by_contra overflows
    rw [receiveLoop_overflow .init clear (Nat.zero_le _) overflows] at ended
    simp at ended
  have room := fits.count_le (Nat.zero_le _)
  obtain ⟨next, looped, reached⟩ := Assembling.init.receiveLoop_before clear fits
    ((line ++ newline :: rest, reallocated) :: later)
  obtain ⟨storageBuffer, received, -⟩ :=
    reached.receiveChunk_complete missing small room reallocated
  rw [looped, receiveLoop, received] at ended
  obtain ⟨within, same⟩ := kept _ _ (Option.some.inj ended).symm
  have lengths := congrArg List.length same
  rw [List.length_take_of_le (by omega), List.length_map, packet_before clear missing,
    List.length_append, length_flatten_before full, List.length_append, List.length_singleton,
    Int.toNat_natCast] at lengths
  have all : before.countP (·.2) = before.length := by
    unfold initBufSize at lengths
    omega
  exact ⟨List.countP_eq_length.mp all, by omega⟩

end Packet

/-- Memory pressure. A packet that comes in full chunks, the last one apart, is kept
if and only if every `realloc` in the middle of it succeeds, and there are not too many of
them for an `int`. -/
theorem keepsPacket_iff (before : List (List UInt8 × Bool)) (line rest : List UInt8)
    (reallocated : Bool) (later : List (List UInt8 × Bool))
    (full : ∀ chunk ∈ before, chunk.1.length = initBufSize)
    (clear : ∀ chunk ∈ before, newline ∉ chunk.1) (missing : newline ∉ line)
    (small : (line ++ newline :: rest).length ≤ initBufSize) :
    KeepsPacket (before ++ (line ++ newline :: rest, reallocated) :: later) ↔
      (∀ chunk ∈ before, chunk.2 = true) ∧ before.length ≤ maxRounds :=
  ⟨reallocated_of_keepsPacket full clear missing small, fun ⟨successful, few⟩ =>
    keepsPacket_of_reallocated full clear missing small successful few⟩

/-- One full chunk whose `realloc` succeeds, and one more byte. -/
theorem keepsPacket_full_chunk :
    KeepsPacket ([(List.replicate 1024 97, true)] ++ [([] ++ newline :: [], false)]) :=
  (keepsPacket_iff [(List.replicate 1024 97, true)] [] [] false [] (by decide +kernel)
    (by decide +kernel) (by decide) (by decide)).mpr (by decide)

/-- The same bytes, but the `realloc` fails: the newline overwrites the first byte, and
`bytes_to_write` is 1. -/
theorem not_keepsPacket_failed_realloc :
    ¬KeepsPacket [(List.replicate 1024 97, false), ([newline], true)] := by
  rintro ⟨exit, ended, kept⟩
  have result : receiveLoop .init [(List.replicate 1024 97, false), ([newline], true)] =
      some (.complete (memcpy (memcpy (List.replicate 1024 none) 0 (List.replicate 1024 97)) 0
        [newline]) 1) := by
    decide +kernel
  rw [result] at ended
  have same := (kept _ _ (Option.some.inj ended).symm).2
  have lengths := congrArg List.length same
  revert lengths
  decide +kernel

/-! ## Arithmetic -/

/-- Receive-loop arithmetic. For chunks of at most `INIT_BUF_SIZE` bytes and any outcomes of
`realloc`, every copy stays in the buffer and every computation is an `int` if and only
if fewer than `maxRounds` `realloc`s succeed before the last chunk without a newline. -/
theorem safeLoop_init_iff (chunks : List (List UInt8 × Bool))
    (sizes : ∀ chunk ∈ chunks, 1 ≤ chunk.1.length ∧ chunk.1.length ≤ initBufSize) :
    SafeLoop .init chunks ↔ (beforeNewline chunks).dropLast.countP (·.2) < maxRounds := by
  rw [Assembling.init.safeLoop_iff (Nat.zero_le _) fun chunk member => (sizes chunk member).2,
    SizesFit, Nat.zero_add]
  refine or_iff_right_of_imp fun empty => ?_
  rw [empty]
  decide

/-- Two chunks, the second with the newline. -/
theorem safeLoop_two_chunks : SafeLoop .init [([97], false), ([98, newline], true)] :=
  (safeLoop_init_iff [([97], false), ([98, newline], true)] (by decide)).mpr (by decide)

/-- A line of `maxRounds + 1` bytes that come one by one. -/
theorem not_safeLoop_single_bytes :
    ¬SafeLoop .init (List.replicate (maxRounds + 1) ([97], true)) := by
  intro safe
  have fits := (Assembling.init.safeLoop_iff (Nat.zero_le _) fun chunk member => by
    rw [List.eq_of_mem_replicate member]
    decide).mp safe
  have whole : beforeNewline (List.replicate (maxRounds + 1) ([97], true)) =
      List.replicate (maxRounds + 1) ([97], true) :=
    List.takeWhile_replicate_eq_filter.trans (by simp [newline])
  rw [whole, List.replicate_succ', SizesFit, List.dropLast_concat, List.countP_replicate] at fits
  simp at fits

end Aesd
