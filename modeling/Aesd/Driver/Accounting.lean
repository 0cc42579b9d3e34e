import Aesd.Driver.Reading
import Mathlib.Algebra.Order.BigOperators.Group.List
import Mathlib.Algebra.Order.Ring.Nat

/-!
# The running total

The driver keeps the number of retained bytes in `circ_total_size` and lets
`aesd_llseek` trust it. A command that finds room adds its size. A command that
evicts another adds its size and then subtracts the same size again, through the
slot it has just been stored into, so the total stays as it was.
-/

namespace Aesd

open KernelMemory MachineInt

namespace DriverState

/-- The total is the sum of the sizes of the ten entries, and a seek is accepted
exactly if its target is between 0 and one past the last retained byte. -/
structure Accounted (state : DriverState) : Prop where
  total : state.dev.circTotalSize.toNat = state.dev.circBuffer.totalSize
  llseek : ∀ fPos off whence,
    0 ≤ (aesdLlseek state.dev fPos off whence).1 ↔
      0 ≤ seekTarget fPos state.commands.flatten.length off whence ∧
        seekTarget fPos state.commands.flatten.length off whence ≤
          state.commands.flatten.length

/-- The size recorded for the command a call completes. -/
def completedSize (sign : CharSign) (state : DriverState) (call : WriteCall) : Int :=
  sign.promote (state.dev.cbSize +
    .ofNat ((call.bytes.findIdx? (· = newline)).getD 0 + 1))

/-- The condition on a call that completes a command: the recorded size is not a
negative `char`, and if the command evicts another, both have the same size. -/
def KeepsTotal (sign : CharSign) (state : DriverState) (call : WriteCall) : Prop :=
  newline ∈ call.bytes → state.Succeeds sign call →
    0 ≤ state.completedSize sign call ∧
      (state.dev.circBuffer.full = true →
        (state.dev.circBuffer.slot state.dev.circBuffer.outOffs).size =
          toSizeT (state.completedSize sign call))

instance (sign : CharSign) (state : DriverState) (call : WriteCall) :
    Decidable (state.KeepsTotal sign call) :=
  inferInstanceAs (Decidable (_ → _ → _))

theorem completedSize_line {sign : CharSign} {state : DriverState} {call : WriteCall}
    {line rest : List UInt8} (isLine : call.bytes = line ++ newline :: rest)
    (missing : newline ∉ line) :
    state.completedSize sign call =
      sign.promote (state.dev.cbSize + .ofNat (line.length + 1)) := by
  rw [completedSize, isLine, Lines.findIdx?_line missing, Option.getD_some]

/-! ## The total and the sizes -/

/-- Every size is a `char` widened to `size_t`: small, or negative and huge. -/
def CharSizes (state : DriverState) : Prop :=
  ∀ size ∈ state.dev.circBuffer.sizes, size ≤ 255 ∨ 2 ^ 63 ≤ size

/-- Which of the two the recorded size is. -/
theorem recordedSize_cases (sign : CharSign) (state : DriverState) (actualSize : Nat) :
    (0 ≤ sign.promote (state.dev.cbSize + .ofNat actualSize) ∧
        (state.recordedSize sign actualSize).toNat ≤ 255) ∨
      (sign.promote (state.dev.cbSize + .ofNat actualSize) < 0 ∧
        2 ^ 63 ≤ (state.recordedSize sign actualSize).toNat) := by
  have lower := sign.neg_le_promote (state.dev.cbSize + .ofNat actualSize)
  have upper := sign.promote_le_max (state.dev.cbSize + .ofNat actualSize)
  have maxBound := sign.max_le
  have value := toNat_toSizeT (sign.promote (state.dev.cbSize + .ofNat actualSize))
  rw [recordedSize]
  omega

/-- With ten sizes that are small or huge, a total below `2 ^ 63` has only small
ones and is itself small. -/
theorem CharSizes.sum_le {state : DriverState} (char : state.CharSizes)
    (ring : state.dev.circBuffer.WellFormed)
    (noWrap : state.dev.circBuffer.sizes.sum < 2 ^ 63) :
    (∀ size ∈ state.dev.circBuffer.sizes, size ≤ 255) ∧
      state.dev.circBuffer.sizes.sum ≤ 2550 := by
  have small : ∀ size ∈ state.dev.circBuffer.sizes, size ≤ 255 := by
    intro size member
    have le := List.le_sum_of_mem member
    rcases char size member with below | above
    · exact below
    · omega
  have few := ring.count_le
  have count : state.dev.circBuffer.sizes.length ≤ maxWriteOperations := by
    simpa [AesdCircularBuffer.sizes] using few
  have total := List.sum_le_card_nsmul _ _ small
  rw [Nat.nsmul_eq_mul] at total
  unfold maxWriteOperations at count
  exact ⟨small, by omega⟩

/-- A device is accounted for exactly if its total is the sum of the retained
sizes and is in the range of `loff_t`. -/
theorem accounted_iff_sum {state : DriverState} (ring : state.dev.circBuffer.WellFormed) :
    state.Accounted ↔
      state.dev.circTotalSize.toNat = state.dev.circBuffer.sizes.sum ∧
        state.dev.circBuffer.sizes.sum < 2 ^ 63 := by
  have bytes := state.length_flatten_commands
  constructor
  · intro accounted
    have total := accounted.total
    rw [ring.totalSize_eq] at total
    refine ⟨total, ?_⟩
    -- The end itself is accepted as a target, so it is a `loff_t`.
    have accepted := (accounted.llseek 0 state.commands.flatten.length .set).mpr
      ⟨Int.natCast_nonneg _, le_rfl⟩
    have bound := toSigned64_lt state.dev.circTotalSize
    unfold aesdLlseek fixedSizeLlseek at accepted
    dsimp only at accepted
    split at accepted
    next inside =>
      have below := inside.2
      simp only [seekTarget] at below
      omega
    next => simp [errnoEinval] at accepted
  · rintro ⟨total, small⟩
    have size : toSigned64 state.dev.circTotalSize = (state.commands.flatten.length : Int) := by
      rw [toSigned64_of_lt (by omega)]
      omega
    refine ⟨by rw [ring.totalSize_eq, total], fun fPos off whence => ?_⟩
    rw [aesdLlseek, size, fixedSizeLlseek]
    split
    next inside => exact iff_of_true inside.1 inside
    next outside => exact iff_of_false (by simp [errnoEinval]) outside

end DriverState

/-! ## One call -/

/-- What every call keeps, whether or not it meets the condition. -/
def CharAccounts (state : DriverState) : Prop := state.WellFormed ∧ state.CharSizes

section Step

variable {sign : CharSign} {state : DriverState} {call : WriteCall}

/-- A call that completes no command leaves the entries and the total alone. -/
theorem dev_of_not_completing
    (incomplete : ¬(newline ∈ call.bytes ∧ state.Succeeds sign call)) :
    (writeStep sign state call).dev.circBuffer = state.dev.circBuffer ∧
      (writeStep sign state call).dev.circTotalSize = state.dev.circTotalSize := by
  by_cases succeeds : state.Succeeds sign call
  · have missing : newline ∉ call.bytes := fun present => incomplete ⟨present, succeeds⟩
    rw [succeeds.dev_unfinished missing]
    exact ⟨rfl, rfl⟩
  · unfold writeStep
    rcases aesdWrite_cases sign state call with ⟨-, -, same⟩ |
      ⟨buf, enters, ⟨-, result⟩ | ⟨-, -, result⟩ | ⟨granted, copies, -⟩⟩
    · rw [same]
      exact ⟨rfl, rfl⟩
    · rw [result]
      exact ⟨rfl, rfl⟩
    · rw [result]
      exact ⟨rfl, rfl⟩
    · obtain rfl := enters.bytes_eq
      exact absurd ⟨enters, granted, copies⟩ succeeds

theorem charAccounts_writeStep (sign : CharSign) (state : DriverState) (call : WriteCall)
    (accounts : CharAccounts state) : CharAccounts (writeStep sign state call) := by
  obtain ⟨wf, char⟩ := accounts
  refine ⟨wellFormed_writeStep sign state call wf, ?_⟩
  by_cases completing : newline ∈ call.bytes ∧ state.Succeeds sign call
  · obtain ⟨present, succeeds⟩ := completing
    obtain ⟨line, rest, isLine, missing⟩ := List.eq_append_cons_of_mem present
    intro size member
    rw [succeeds.sizes_line wf isLine missing] at member
    rcases List.mem_append.mp (List.mem_of_mem_drop member) with old | new
    · exact char size old
    · obtain rfl := List.mem_singleton.mp new
      rcases state.recordedSize_cases sign (line.length + 1) with ⟨-, small⟩ | ⟨-, huge⟩
      · exact .inl small
      · exact .inr huge
  · unfold DriverState.CharSizes
    rw [(dev_of_not_completing completing).1]
    exact char

/-- A command that finds room. -/
theorem accounted_line_of_open (accounts : CharAccounts state) (accounted : state.Accounted)
    (succeeds : state.Succeeds sign call) {line rest : List UInt8}
    (isLine : call.bytes = line ++ newline :: rest) (missing : newline ∉ line)
    (room : state.dev.circBuffer.full = false) :
    (writeStep sign state call).Accounted ↔
      0 ≤ sign.promote (state.dev.cbSize + .ofNat (line.length + 1)) := by
  obtain ⟨wf, char⟩ := accounts
  obtain ⟨total, noWrap⟩ := (DriverState.accounted_iff_sum wf.ring).mp accounted
  have small := (char.sum_le wf.ring noWrap).2
  have short : state.dev.circBuffer.sizes.length < maxWriteOperations := by
    rw [AesdCircularBuffer.sizes, List.length_map]
    exact wf.ring.length_retained_lt room
  rw [DriverState.accounted_iff_sum (wellFormed_writeStep sign state call wf).ring,
    succeeds.sizes_line wf isLine missing, Window.push_of_lt short, List.sum_append,
    List.sum_singleton, succeeds.circTotalSize_line wf isLine missing, room,
    if_neg Bool.false_ne_true, UInt64.toNat_add]
  rcases state.recordedSize_cases sign (line.length + 1) with
    ⟨nonneg, below⟩ | ⟨negative, above⟩
  · exact iff_of_true ⟨by omega, by omega⟩ nonneg
  · exact iff_of_false (by omega) (by omega)

/-- A command that evicts another. -/
theorem accounted_line_of_full (accounts : CharAccounts state) (accounted : state.Accounted)
    (succeeds : state.Succeeds sign call) {line rest : List UInt8}
    (isLine : call.bytes = line ++ newline :: rest) (missing : newline ∉ line)
    (full : state.dev.circBuffer.full = true) :
    (writeStep sign state call).Accounted ↔
      0 ≤ sign.promote (state.dev.cbSize + .ofNat (line.length + 1)) ∧
        (state.dev.circBuffer.slot state.dev.circBuffer.outOffs).size =
          state.recordedSize sign (line.length + 1) := by
  obtain ⟨wf, char⟩ := accounts
  obtain ⟨total, noWrap⟩ := (DriverState.accounted_iff_sum wf.ring).mp accounted
  obtain ⟨smalls, small⟩ := char.sum_le wf.ring noWrap
  have ten : state.dev.circBuffer.retained.length = maxWriteOperations :=
    wf.ring.full_iff.mp full
  obtain ⟨oldest, others, entries⟩ : ∃ oldest others,
      state.dev.circBuffer.retained = oldest :: others := by
    cases entries : state.dev.circBuffer.retained with
    | nil => simp [entries, maxWriteOperations] at ten
    | cons oldest others => exact ⟨oldest, others, rfl⟩
  have slot : state.dev.circBuffer.slot state.dev.circBuffer.outOffs = oldest := by
    have selected := AesdCircularBuffer.slot_of_retained
      (show state.dev.circBuffer.retained[0]? = some oldest by simp [entries])
    rwa [Nat.add_zero, Nat.mod_eq_of_lt wf.ring.outOffs_lt] at selected
  have sizes : state.dev.circBuffer.sizes =
      oldest.size.toNat :: others.map fun entry => entry.size.toNat := by
    rw [AesdCircularBuffer.sizes, entries, List.map_cons]
  have oldestSmall := smalls oldest.size.toNat (by simp [sizes])
  have length : state.dev.circBuffer.sizes.length = maxWriteOperations := by
    simpa [AesdCircularBuffer.sizes] using ten
  rw [DriverState.accounted_iff_sum (wellFormed_writeStep sign state call wf).ring,
    succeeds.sizes_line wf isLine missing, Window.push_of_eq length (by decide),
    succeeds.circTotalSize_line wf isLine missing, full, if_pos rfl, slot, total, sizes,
    List.tail_cons, List.sum_append, List.sum_singleton, List.sum_cons, ← UInt64.toNat_inj]
  rw [sizes, List.sum_cons] at small
  rcases state.recordedSize_cases sign (line.length + 1) with
    ⟨nonneg, below⟩ | ⟨negative, above⟩
  · constructor
    · exact fun same => ⟨nonneg, by omega⟩
    · exact fun same => ⟨by omega, by omega⟩
  · exact iff_of_false (by omega) (by omega)

/-- A call keeps the accounts exactly if it meets the condition. -/
theorem accounted_writeStep (accounts : CharAccounts state) (accounted : state.Accounted) :
    (writeStep sign state call).Accounted ↔ state.KeepsTotal sign call := by
  by_cases completing : newline ∈ call.bytes ∧ state.Succeeds sign call
  · obtain ⟨present, succeeds⟩ := completing
    obtain ⟨line, rest, isLine, missing⟩ := List.eq_append_cons_of_mem present
    have meets : state.KeepsTotal sign call ↔
        0 ≤ sign.promote (state.dev.cbSize + .ofNat (line.length + 1)) ∧
          (state.dev.circBuffer.full = true →
            (state.dev.circBuffer.slot state.dev.circBuffer.outOffs).size =
              state.recordedSize sign (line.length + 1)) := by
      rw [DriverState.KeepsTotal, DriverState.completedSize_line isLine missing]
      exact ⟨fun keeps => keeps present succeeds, fun keeps _ _ => keeps⟩
    rw [meets]
    cases full : state.dev.circBuffer.full with
    | false => simpa using accounted_line_of_open accounts accounted succeeds isLine missing full
    | true => simpa using accounted_line_of_full accounts accounted succeeds isLine missing full
  · obtain ⟨circBuffer, circTotalSize⟩ := dev_of_not_completing completing
    have sums := (DriverState.accounted_iff_sum accounts.1.ring).mp accounted
    refine iff_of_true ?_ fun present succeeds => absurd ⟨present, succeeds⟩ completing
    rw [DriverState.accounted_iff_sum
      (wellFormed_writeStep sign state call accounts.1).ring, circBuffer, circTotalSize]
    exact sums

end Step

/-- Size accounting. In a run of writes, `circ_total_size` is the sum of the ten
entry sizes in every state reached, and `aesd_llseek` accepts exactly the positions
up to the end of the retained bytes, if and only if every command is recorded with
a size that is not negative and evicts only a command of its own size. -/
theorem accounted_iff (sign : CharSign) (calls : List WriteCall) :
    (∀ visited, visited <+: calls →
      (Runs.run (writeStep sign) aesdInitModule visited).Accounted) ↔
      Runs.Along (writeStep sign) (DriverState.KeepsTotal sign) aesdInitModule calls :=
  Runs.forall_prefix_iff CharAccounts DriverState.Accounted
    (fun state call accounts => charAccounts_writeStep sign state call accounts)
    (fun _ _ accounts accounted => accounted_writeStep accounts accounted) calls
    ⟨DriverState.wellFormed_init, by
      simp [DriverState.CharSizes, aesdInitModule, AesdCircularBuffer.sizes]⟩
    ((DriverState.accounted_iff_sum AesdCircularBuffer.wellFormed_init).mpr (by
      simp [aesdInitModule, AesdCircularBuffer.sizes]))

/-- Ten lines of one byte, then one of two bytes. -/
theorem not_accounted_longer_line :
    ¬(Runs.run (writeStep .signed) aesdInitModule
      ((List.range 10).map (.granted [newline]) ++ [.granted [97, newline] 10])).Accounted := by
  intro accounted
  have total := accounted.total
  revert total
  decide +kernel

end Aesd
