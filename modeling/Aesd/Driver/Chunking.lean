import Aesd.Driver.Contents

/-!
# Cutting a stream into calls

A stream of bytes can be cut into calls of `aesd_write` in many ways. The device
ought to hold the same afterwards, namely what the abstract device holds after
the stream. The driver does so exactly for the streams that are `Chunkable`: it
drops what follows the first newline of a call, it counts the pending bytes in a
`char`, and it loses the command that evicts another. Behind pending bytes that a
failed `krealloc` has lost, a command starts with whatever is in its new block.
-/

namespace Aesd

open KernelMemory MachineInt

namespace DriverState

/-- The calls hand over the bytes one after the other, and the return value of
each acknowledges all of its bytes. -/
def Cuts (sign : CharSign) (state : DriverState) (bytes : List UInt8)
    (calls : List WriteCall) : Prop :=
  calls.flatMap WriteCall.bytes = bytes ∧
    Runs.Along (writeStep sign)
      (fun state call => (aesdWrite sign state call).1 = call.bytes.length) state calls

instance (sign : CharSign) (state : DriverState) (bytes : List UInt8)
    (calls : List WriteCall) : Decidable (state.Cuts sign bytes calls) :=
  inferInstanceAs (Decidable (_ ∧ _))

/-- Any two ways to cut the bytes leave the same commands and the same pending
bytes, and no acknowledged byte is dropped. Two bytes that nobody has written are
not the same byte, so none of those added to the device is of that kind. -/
def ChunkingIndependent (sign : CharSign) (state : DriverState) (bytes : List UInt8) : Prop :=
  (∀ first second, state.Cuts sign bytes first → state.Cuts sign bytes second →
    (Runs.run (writeStep sign) state first).contents sign =
      (Runs.run (writeStep sign) state second).contents sign) ∧
  (∀ calls, state.Cuts sign bytes calls →
    (Runs.run (writeStep sign) state calls).contents sign =
      (state.contents sign).feed bytes) ∧
  ∀ calls, state.Cuts sign bytes calls →
    none ∉ (state.contents sign).cellsSince
      ((Runs.run (writeStep sign) state calls).contents sign)

/-- The driver keeps all of the stream whatever the cut: the pending length and all of
the stream are in the range of `char`, a newline is only the last byte, and if
there is one the circular buffer has room. -/
def Cuttable (sign : CharSign) (state : DriverState) (bytes : List UInt8) : Prop :=
  bytes = [] ∨
    (0 ≤ sign.promote state.dev.cbSize ∧
      sign.promote state.dev.cbSize + bytes.length ≤ sign.max ∧
      newline ∉ bytes.dropLast ∧
      (newline ∈ bytes → state.dev.circBuffer.full = false))

/-- The streams the driver handles whatever the cut: it keeps all of them, and no
pending byte is unknown, as one is that a failed `krealloc` has lost. -/
def Chunkable (sign : CharSign) (state : DriverState) (bytes : List UInt8) : Prop :=
  none ∉ state.pending sign ∧ state.Cuttable sign bytes

/-! ## Streams that are kept -/

section Cuttable

variable {sign : CharSign} {state : DriverState}

/-- Without its newlines at the end, a stream splits in two cuttable parts. -/
theorem Cuttable.of_append {first second : List UInt8}
    (cuttable : state.Cuttable sign (first ++ second)) (more : second ≠ []) :
    newline ∉ first ∧ state.Cuttable sign first := by
  rcases cuttable with empty | ⟨nonneg, fits, early, -⟩
  · exact absurd (List.append_eq_nil_iff.mp empty).2 more
  · rw [List.dropLast_append_of_ne_nil more, List.mem_append, not_or] at early
    rw [List.length_append] at fits
    exact ⟨early.1, .inr ⟨nonneg, by omega, fun present =>
      early.1 (List.mem_of_mem_dropLast present), fun present => absurd present early.1⟩⟩

/-- A cuttable stream with a newline is one line. -/
theorem Cuttable.line {bytes : List UInt8} (cuttable : state.Cuttable sign bytes)
    (present : newline ∈ bytes) :
    ∃ line, bytes = line ++ [newline] ∧ newline ∉ line := by
  rcases cuttable with rfl | ⟨-, -, early, -⟩
  · simp at present
  · obtain ⟨line, rest, rfl, missing⟩ := List.eq_append_cons_of_mem present
    cases rest with
    | nil => exact ⟨line, rfl, missing⟩
    | cons byte rest =>
        rw [List.dropLast_append_of_ne_nil (by simp), List.dropLast_cons_of_ne_nil (by simp)]
          at early
        simp at early

/-- A call with no bytes changes nothing. -/
theorem WellFormed.contents_empty (wf : state.WellFormed) {call : WriteCall}
    (succeeds : state.Succeeds sign call) (empty : call.bytes = []) :
    (writeStep sign state call).contents sign = state.contents sign := by
  have missing : newline ∉ call.bytes := by simp [empty]
  by_cases nonneg : 0 ≤ sign.promote state.dev.cbSize
  · have bound := sign.promote_le_max state.dev.cbSize
    simpa [empty] using
      wf.contents_unfinished succeeds missing nonneg (by simpa [empty] using bound)
  · have sameSize : (writeStep sign state call).dev.cbSize = state.dev.cbSize := by
      simp [succeeds.dev_unfinished missing, empty]
    have nothing : (writeStep sign state call).pending sign = [] ∧ state.pending sign = [] :=
      ⟨List.eq_nil_of_length_eq_zero (by rw [length_pending, sameSize]; omega),
        List.eq_nil_of_length_eq_zero (by rw [length_pending]; omega)⟩
    rw [contents, contents, wf.commands_unfinished succeeds missing, nothing.1, nothing.2]

/-- One call with cuttable bytes. -/
theorem WellFormed.contents_chunk (wf : state.WellFormed) {call : WriteCall}
    (succeeds : state.Succeeds sign call) (cuttable : state.Cuttable sign call.bytes) :
    (writeStep sign state call).contents sign = (state.contents sign).feed call.bytes := by
  by_cases empty : call.bytes = []
  · rw [wf.contents_empty succeeds empty, empty, Contents.feed_nil]
  · obtain ⟨nonneg, fits, -, room⟩ := cuttable.resolve_left empty
    have bound := sign.max_le
    by_cases present : newline ∈ call.bytes
    · obtain ⟨line, isLine, missing⟩ := cuttable.line present
      rw [wf.contents_line succeeds isLine missing (room present) nonneg
        (by simpa [isLine] using fits) (by omega), isLine]
    · exact wf.contents_unfinished succeeds present nonneg fits

/-- What is left of a cuttable stream after a call stays cuttable. -/
theorem Cuttable.rest {call : WriteCall} {bytes : List UInt8}
    (succeeds : state.Succeeds sign call)
    (cuttable : state.Cuttable sign (call.bytes ++ bytes)) :
    (writeStep sign state call).Cuttable sign bytes := by
  by_cases more : bytes = []
  · exact .inl more
  · have missing := (cuttable.of_append more).1
    rcases cuttable with empty | ⟨nonneg, fits, early, room⟩
    · exact absurd (List.append_eq_nil_iff.mp empty).2 more
    · rw [List.length_append] at fits
      rw [List.dropLast_append_of_ne_nil more, List.mem_append, not_or] at early
      rw [Cuttable, succeeds.dev_unfinished missing]
      simp only [sign.promote_add_of_le _ _ nonneg (show sign.promote state.dev.cbSize +
        call.bytes.length ≤ sign.max by omega)]
      exact .inr ⟨by omega, by omega, early.2, fun present => room (by simp [present])⟩

/-- Every cut of a cuttable stream leaves what the abstract device holds. -/
theorem WellFormed.contents_cuts (wf : state.WellFormed) {bytes : List UInt8}
    {calls : List WriteCall} (cuts : state.Cuts sign bytes calls)
    (cuttable : state.Cuttable sign bytes) :
    (Runs.run (writeStep sign) state calls).contents sign =
      (state.contents sign).feed bytes := by
  induction calls generalizing state bytes with
  | nil =>
      obtain ⟨rfl, -⟩ := cuts
      rfl
  | cons call calls ih =>
      obtain ⟨rfl, acknowledged, along⟩ := cuts
      have succeeds := (retval_eq_iff sign state call).mp acknowledged
      rw [List.flatMap_cons] at cuttable ⊢
      have first : state.Cuttable sign call.bytes := by
        by_cases more : calls.flatMap WriteCall.bytes = []
        · rwa [more, List.append_nil] at cuttable
        · exact (cuttable.of_append more).2
      rw [Runs.run_cons, ih (wellFormed_writeStep sign state call wf) ⟨rfl, along⟩
        (cuttable.rest succeeds), wf.contents_chunk succeeds first, Contents.feed_append]

/-- A stream that is kept adds its bytes to the pending ones. -/
theorem WellFormed.cellsSince_cuts (wf : state.WellFormed) {bytes : List UInt8}
    {calls : List WriteCall} (cuts : state.Cuts sign bytes calls)
    (cuttable : state.Cuttable sign bytes) :
    (state.contents sign).cellsSince ((Runs.run (writeStep sign) state calls).contents sign) =
      state.pending sign ++ bytes.map some := by
  rw [wf.contents_cuts cuts cuttable]
  apply Contents.cellsSince_feed
  change state.commands.length + _ ≤ _
  by_cases present : newline ∈ bytes
  · obtain ⟨line, rfl, missing⟩ := cuttable.line present
    obtain ⟨-, -, -, room⟩ := cuttable.resolve_left (by simp)
    have short := wf.length_commands_lt (room present)
    rw [List.count_append, List.count_eq_zero.mpr missing, List.count_singleton_self]
    omega
  · have few := wf.ring.count_le
    rw [List.count_eq_zero.mpr present, length_commands]
    exact few

end Cuttable

/-! ## Streams that are not kept -/

section Exact

variable {sign : CharSign} {state : DriverState}

/-- The cut into one call. -/
theorem exists_cut_one (sign : CharSign) (state : DriverState) (bytes : List UInt8) :
    ∃ call : WriteCall, call.bytes = bytes ∧ state.Succeeds sign call ∧
      state.Cuts sign bytes [call] := by
  obtain ⟨call, rfl, succeeds⟩ := state.exists_succeeds sign bytes
  exact ⟨call, rfl, succeeds, by simp, (retval_eq_iff sign state call).mpr succeeds, trivial⟩

/-- The cuts into two calls. -/
theorem exists_cut_two (sign : CharSign) (state : DriverState) (first second : List UInt8) :
    ∃ call next : WriteCall, call.bytes = first ∧ next.bytes = second ∧
      state.Succeeds sign call ∧ (writeStep sign state call).Succeeds sign next ∧
      state.Cuts sign (first ++ second) [call, next] := by
  obtain ⟨call, rfl, succeeds⟩ := state.exists_succeeds sign first
  obtain ⟨next, rfl, nextSucceeds⟩ := (writeStep sign state call).exists_succeeds sign second
  exact ⟨call, next, rfl, rfl, succeeds, nextSucceeds, by simp,
    (retval_eq_iff ..).mpr succeeds, (retval_eq_iff ..).mpr nextSucceeds, trivial⟩

/-- On a full buffer no call with a newline does what the abstract device does. -/
theorem WellFormed.room_of_exact (wf : state.WellFormed) {call : WriteCall}
    (succeeds : state.Succeeds sign call) (present : newline ∈ call.bytes)
    {before : Contents} {bytes : List UInt8} (completes : newline ∈ bytes)
    (exact : (writeStep sign state call).contents sign = before.feed bytes) :
    state.dev.circBuffer.full = false := by
  by_contra full
  rw [Bool.not_eq_false] at full
  obtain ⟨line, rest, isLine, missing⟩ := List.eq_append_cons_of_mem present
  have lost := wf.commands_line_of_full succeeds isLine missing full
  obtain ⟨command, last⟩ := before.getLast?_commands_feed completes
  rw [← exact, contents, lost, List.getLast?_concat, Option.some.injEq] at last
  have member : some newline ∈ List.replicate
      (state.recordedSize sign (line.length + 1)).toNat (none : Cell) := by simp [last]
  simp at member

/-- With two newlines in the stream there is a cut that goes wrong. -/
theorem ChunkingIndependent.early (wf : state.WellFormed) {line rest : List UInt8}
    (missing : newline ∉ line)
    (independent : state.ChunkingIndependent sign (line ++ newline :: rest)) : rest = [] := by
  by_contra more
  have present : newline ∈ line ++ newline :: rest := by simp
  obtain ⟨call, isLine, succeeds, cuts⟩ := exists_cut_one sign state (line ++ newline :: rest)
  have exact := independent.2.1 [call] cuts
  rw [Runs.run_cons, Runs.run_nil] at exact
  have room := wf.room_of_exact succeeds (isLine ▸ present) present exact
  have finished : ((state.contents sign).feed (line ++ newline :: rest)).pending = [] := by
    rw [← exact]
    exact succeeds.pending_line wf isLine missing
  have ends : newline ∈ rest := by
    have last := Contents.getLast?_of_pending_feed _ (by simp) finished
    rw [List.getLast?_append_of_ne_nil _ (by simp), List.getLast?_cons_of_ne_nil more] at last
    exact List.mem_of_getLast? last
  -- The single call completes one command, the stream at least two.
  have count : 2 ≤ (line ++ newline :: rest).count newline := by
    rw [List.count_append, List.count_cons_self]
    have positive := List.count_pos_iff.mpr ends
    omega
  have short := wf.length_commands_lt room
  have lengths := congrArg (fun contents => contents.commands.length) exact
  simp only [Contents.length_commands_feed _ _ (show (state.contents sign).commands.length ≤
    maxWriteOperations from short.le)] at lengths
  simp only [contents, wf.commands_line succeeds isLine missing room, List.length_append,
    List.length_singleton] at lengths
  have nine : state.commands.length + 1 = maxWriteOperations := by omega
  -- So the first of two calls fills the buffer, and the second loses its command.
  obtain ⟨first, second, isFirst, rfl, firstSucceeds, secondSucceeds, twoCuts⟩ :=
    exists_cut_two sign state (line ++ [newline]) rest
  have shape : line ++ [newline] ++ second.bytes = line ++ newline :: second.bytes := by simp
  rw [shape] at twoCuts
  have twoExact := independent.2.1 _ twoCuts
  rw [Runs.run_cons, Runs.run_cons, Runs.run_nil] at twoExact
  have nextWf := wellFormed_writeStep sign state first wf
  have nextRoom := nextWf.room_of_exact secondSucceeds ends present twoExact
  refine absurd (nextWf.full_iff.mpr ?_) (by simp [nextRoom])
  rw [wf.commands_line firstSucceeds isFirst missing room]
  simpa using nine

/-- Without a newline the stream has to stay in the range of `char`. -/
theorem ChunkingIndependent.fits_unfinished {bytes : List UInt8}
    (independent : state.ChunkingIndependent sign bytes) (nonempty : bytes ≠ [])
    (missing : newline ∉ bytes) :
    0 ≤ sign.promote state.dev.cbSize ∧
      sign.promote state.dev.cbSize + bytes.length ≤ sign.max := by
  obtain ⟨call, rfl, succeeds, cuts⟩ := exists_cut_one sign state bytes
  have exact := independent.2.1 [call] cuts
  rw [Runs.run_cons, Runs.run_nil, Contents.feed_of_notMem _ missing] at exact
  have lengths := congrArg (fun contents => contents.pending.length) exact
  simp only [contents, length_pending, succeeds.dev_unfinished missing, List.length_append,
    List.length_map] at lengths
  exact sign.fits_of_toNat_promote_add _ (List.length_pos_iff.mpr nonempty) lengths

/-- A line written by one call has its true length recorded, as it has the right
bytes. -/
theorem ChunkingIndependent.recorded (wf : state.WellFormed) {line : List UInt8}
    (missing : newline ∉ line)
    (independent : state.ChunkingIndependent sign (line ++ [newline])) :
    state.dev.circBuffer.full = false ∧
      (state.recordedSize sign (line.length + 1)).toNat =
        (sign.promote state.dev.cbSize).toNat + (line.length + 1) := by
  obtain ⟨call, isLine, succeeds, cuts⟩ := exists_cut_one sign state (line ++ [newline])
  have exact := independent.2.1 [call] cuts
  rw [Runs.run_cons, Runs.run_nil] at exact
  have room := wf.room_of_exact succeeds (by simp [isLine]) (by simp) exact
  refine ⟨room, ?_⟩
  rw [Contents.feed_line _ missing] at exact
  have commands := congrArg Contents.commands exact
  simp only [contents] at commands
  rw [wf.commands_line succeeds isLine missing room,
    Window.push_of_lt (wf.length_commands_lt room)] at commands
  have lengths := congrArg List.length (List.singleton_inj.mp (List.append_cancel_left commands))
  simpa using lengths

/-- The recorded length is not a negative `char` widened to `size_t`: for a stream
that long, a cut after the byte that makes the pending length negative leaves a
block shorter than the recorded length. -/
theorem ChunkingIndependent.recorded_nonneg (wf : state.WellFormed) {line : List UInt8}
    (missing : newline ∉ line)
    (independent : state.ChunkingIndependent sign (line ++ [newline])) :
    0 ≤ sign.promote (state.dev.cbSize + .ofNat (line.length + 1)) := by
  by_contra negative
  obtain ⟨room, lengths⟩ := independent.recorded wf missing
  have recordedValue := toNat_recordedSize_of_neg sign state (line.length + 1) (by omega)
  have maxBound := sign.max_of_promote_neg (not_le.mp negative)
  have residue := sign.promote_add_emod state.dev.cbSize (line.length + 1)
  have bound := sign.neg_le_promote (state.dev.cbSize + .ofNat (line.length + 1))
  have lower := sign.neg_le_promote state.dev.cbSize
  have upper := sign.promote_le_max state.dev.cbSize
  -- The first call takes the pending length to 128.
  obtain ⟨cut, isCut⟩ : ∃ cut : Nat, (cut : Int) = 128 - sign.promote state.dev.cbSize :=
    ⟨(128 - sign.promote state.dev.cbSize).toNat, by omega⟩
  have within : cut < line.length := by omega
  obtain ⟨first, second, isFirst, isSecond, firstSucceeds, secondSucceeds, cuts⟩ :=
    exists_cut_two sign state (line.take cut) (line.drop cut ++ [newline])
  rw [← List.append_assoc, List.take_append_drop] at cuts
  have exact := independent.2.1 _ cuts
  rw [Runs.run_cons, Runs.run_cons, Runs.run_nil] at exact
  have firstMissing : newline ∉ first.bytes := isFirst ▸ fun member =>
    missing (List.mem_of_mem_take member)
  have secondMissing : newline ∉ line.drop cut := fun member =>
    missing (List.mem_of_mem_drop member)
  have middleSize : (writeStep sign state first).dev.cbSize =
      state.dev.cbSize + .ofNat cut := by
    rw [firstSucceeds.dev_unfinished firstMissing, isFirst,
      List.length_take_of_le (by omega)]
  have middleRoom : (writeStep sign state first).dev.circBuffer.full = false := by
    rw [firstSucceeds.dev_unfinished firstMissing]
    exact room
  have middleValue : sign.promote (writeStep sign state first).dev.cbSize = -128 := by
    have same := sign.promote_add_emod state.dev.cbSize cut
    have below := sign.promote_le_max (state.dev.cbSize + .ofNat cut)
    have above := sign.neg_le_promote (state.dev.cbSize + .ofNat cut)
    rw [middleSize]
    omega
  have sameRecorded : (writeStep sign state first).recordedSize sign
      ((line.drop cut).length + 1) = state.recordedSize sign (line.length + 1) := by
    rw [recordedSize, recordedSize, middleSize, UInt8.add_assoc, ← UInt8.ofNat_add,
      List.length_drop, show cut + (line.length - cut + 1) = line.length + 1 by omega]
  -- So the block of the second call is shorter than the recorded length.
  have beyond : (writeStep sign state first).request sign second.bytes.length <
      ((writeStep sign state first).recordedSize sign ((line.drop cut).length + 1)).toNat := by
    have length : second.bytes.length = line.length - cut + 1 := by
      rw [isSecond, List.length_append, List.length_drop, List.length_singleton]
    have requested := request_of_lt sign (writeStep sign state first) second.bytes.length
      (by omega) (by omega)
    rw [sameRecorded]
    omega
  have ends : newline ∈ line ++ [newline] := by simp
  obtain ⟨command, last⟩ := (state.contents sign).getLast?_commands_feed ends
  rw [← exact] at last
  exact (wellFormed_writeStep sign state first wf).getLast?_commands_line_ne secondSucceeds
    isSecond secondMissing middleRoom beyond command newline last

/-- So every stream that is independent of the cut is kept. -/
theorem ChunkingIndependent.cuttable (wf : state.WellFormed) {bytes : List UInt8}
    (independent : state.ChunkingIndependent sign bytes) : state.Cuttable sign bytes := by
  by_cases nonempty : bytes = []
  · exact .inl nonempty
  · by_cases present : newline ∈ bytes
    · obtain ⟨line, rest, rfl, missing⟩ := List.eq_append_cons_of_mem present
      obtain rfl := independent.early wf missing
      obtain ⟨room, recorded⟩ := independent.recorded wf missing
      have nonneg := independent.recorded_nonneg wf missing
      have exact : (sign.promote (state.dev.cbSize + .ofNat (line.length + 1))).toNat =
          (sign.promote state.dev.cbSize).toNat + (line.length + 1) := by
        have upper := sign.promote_le_max (state.dev.cbSize + .ofNat (line.length + 1))
        have bound := sign.max_le
        have value := toNat_toSizeT_of_lt nonneg (by omega)
        rw [DriverState.recordedSize] at recorded
        omega
      obtain ⟨pendingNonneg, fits⟩ :=
        sign.fits_of_toNat_promote_add _ (Nat.succ_pos _) exact
      exact .inr ⟨pendingNonneg, by simpa using fits, by simpa using missing,
        fun _ => room⟩
    · obtain ⟨nonneg, fits⟩ := independent.fits_unfinished nonempty present
      exact .inr ⟨nonneg, fits, fun early => present (List.mem_of_mem_dropLast early),
        fun completes => absurd completes present⟩

end Exact

end DriverState

/-- Chunking independence. What the device holds after a stream of bytes is
independent of the cut into calls, with no acknowledged byte dropped and none
unknown, exactly for the chunkable streams. -/
theorem chunking_independent_iff (sign : CharSign) (state : DriverState)
    (wf : state.WellFormed) (bytes : List UInt8) :
    state.ChunkingIndependent sign bytes ↔ state.Chunkable sign bytes := by
  constructor
  · intro independent
    have cuttable := independent.cuttable wf
    obtain ⟨call, -, -, cuts⟩ := DriverState.exists_cut_one sign state bytes
    have known := independent.2.2 [call] cuts
    rw [wf.cellsSince_cuts cuts cuttable, List.mem_append, not_or] at known
    exact ⟨known.1, cuttable⟩
  · rintro ⟨known, cuttable⟩
    have each : ∀ calls, state.Cuts sign bytes calls →
        (Runs.run (writeStep sign) state calls).contents sign =
          (state.contents sign).feed bytes := fun _ cuts => wf.contents_cuts cuts cuttable
    refine ⟨fun first second firstCuts secondCuts =>
      (each first firstCuts).trans (each second secondCuts).symm, each, fun calls cuts => ?_⟩
    rw [wf.cellsSince_cuts cuts cuttable, List.mem_append, not_or]
    exact ⟨known, by simp⟩

/-- The stream `i\n` behind a pending `h`. -/
theorem chunking_independent_hi :
    (writeStep .signed aesdInitModule (.granted [104] 0)).ChunkingIndependent .signed
      [105, newline] :=
  (chunking_independent_iff .signed _
    (wellFormed_writeStep _ _ _ DriverState.wellFormed_init) _).mpr
      ⟨by decide, .inr (by decide)⟩

/-- Behind an `h` that a failed `krealloc` has lost, no stream is chunkable. -/
example (bytes : List UInt8) :
    ¬(Runs.run (writeStep .signed) aesdInitModule
      [.granted [104] 0, { WriteCall.granted [105] 1 with grant := none }]).Chunkable .signed
        bytes := by
  rintro ⟨known, -⟩
  revert known
  decide

/-- Two lines written by one call lose the second one, two calls keep it. -/
theorem chunking_dependent_two_lines :
    ¬aesdInitModule.ChunkingIndependent .signed [97, newline, 98, newline] := by
  intro independent
  have same := independent.1 [.granted [97, newline, 98, newline] 0]
    [.granted [97, newline] 0, .granted [98, newline] 1] (by decide) (by decide)
  revert same
  decide

end Aesd
