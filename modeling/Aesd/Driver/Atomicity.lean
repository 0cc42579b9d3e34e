import Aesd.Driver.Lengths

/-!
# Failed writes

A call of `aesd_write` that returns a negative value should leave no trace. Two
of its failures come after the allocation. A failed copy leaves the pending
bytes in place, but a failed `krealloc` stores the null pointer over the pending
block while `cb_size` keeps counting its bytes. And where `cb_size` has become
negative, a failed copy still fills its range, in front of its block.
`SameView` relates two devices no writer can tell apart, and successful writes
keep it.
-/

namespace Aesd

open KernelMemory MachineInt

/-- What is visible of a device: the retained commands, the pending bytes,
`circ_total_size` and `cb_size`. A pending byte that is in no block is missing. -/
structure View where
  commands : List (List Cell)
  pending : List (Option Cell)
  circTotalSize : UInt64
  cbSize : UInt8
  deriving DecidableEq

namespace DriverState

/-- The bytes that `cb_size` counts, each in its place. They are counted modulo 256,
so those of a negative `cb_size` are there, too. -/
def pendingPlaces (state : DriverState) : List (Option Cell) :=
  (List.range state.dev.cbSize.toNat).map (state.mem.place state.dev.cbBuffer)

@[simp] theorem length_pendingPlaces (state : DriverState) :
    state.pendingPlaces.length = state.dev.cbSize.toNat := by
  simp [pendingPlaces]

def view (state : DriverState) : View :=
  ⟨state.commands, state.pendingPlaces, state.dev.circTotalSize, state.dev.cbSize⟩

/-- The pending bytes are where the driver looks for them: `cb_size` is not negative,
and the block is there. Elsewhere a write goes in front of its block, or behind
bytes that nobody has written. -/
def PendingHeld (sign : CharSign) (state : DriverState) : Prop :=
  0 ≤ sign.promote state.dev.cbSize ∧ none ∉ state.pendingPlaces

instance (sign : CharSign) (state : DriverState) : Decidable (state.PendingHeld sign) :=
  inferInstanceAs (Decidable (_ ∧ _))

/-- The user copies between the two states stay inside of their blocks. -/
def StaysInBlocks (before after : DriverState) : Prop :=
  ∃ recent, after.mem.calls = recent ++ before.mem.calls ∧ ∀ recorded ∈ recent, recorded.InBounds

/-- The call succeeds, with its count past `vfs_write`, and adds to pending bytes that
are held. Where they are not, it writes over other objects of the heap or begins a
command with bytes that nobody has written, and what the commands are then is not up
to the calls before it. -/
def Continues (sign : CharSign) (state : DriverState) (call : WriteCall) : Prop :=
  (aesdWrite sign state call).1 = call.bytes.length ∧
    call.bytes.length ≤ maxRwCount ∧
    state.PendingHeld sign

/-- If the call fails, the device looks as before it and nothing else has been written
over, and after the same bytes are written to the device before and after the call the
commands are the same. -/
def FailsAtomically (sign : CharSign) (state : DriverState) (call : WriteCall) : Prop :=
  (aesdWrite sign state call).1 < 0 →
    (writeStep sign state call).view = state.view ∧
    state.StaysInBlocks (writeStep sign state call) ∧
    ∀ later other : List WriteCall,
      List.Forall₂ (fun first second => first.bytes = second.bytes) later other →
      Runs.Along (writeStep sign) (Continues sign) (writeStep sign state call) later →
      Runs.Along (writeStep sign) (Continues sign) state other →
      (Runs.run (writeStep sign) (writeStep sign state call) later).commands =
        (Runs.run (writeStep sign) state other).commands

/-- The allocation of the call does not fail while a pending byte is in a block, and its
copy does not fail unless the pending bytes are held. -/
def KeepsPending (sign : CharSign) (state : DriverState) (call : WriteCall) : Prop :=
  call.Enters call.bytes →
    (state.Starves sign call call.bytes → ∀ place ∈ state.pendingPlaces, place = none) ∧
    (¬state.Starves sign call call.bytes → ¬call.Copies call.bytes → state.PendingHeld sign)

/-! ## Devices no writer can tell apart -/

structure SameView (state other : DriverState) : Prop where
  wellFormed : state.WellFormed
  otherWellFormed : other.WellFormed
  view_eq : state.view = other.view

/-- Two devices that look the same have the same pending cells. -/
theorem cell_eq_of_view_eq {state other : DriverState} (same : state.view = other.view)
    {index : Nat} (below : index < state.dev.cbSize.toNat) :
    state.mem.cell state.dev.cbBuffer index = other.mem.cell other.dev.cbBuffer index := by
  have size : state.dev.cbSize = other.dev.cbSize := congrArg View.cbSize same
  have places := congrArg (fun view => view.pending[index]?) same
  simp only [view, pendingPlaces, ← size, List.getElem?_map, List.getElem?_range below,
    Option.map_some, Option.some.injEq] at places
  rw [Memory.cell_eq_join_place, places, ← Memory.cell_eq_join_place]

theorem pending_eq_of_view_eq {state other : DriverState} (sign : CharSign)
    (same : state.view = other.view) : state.pending sign = other.pending sign := by
  have size : state.dev.cbSize = other.dev.cbSize := congrArg View.cbSize same
  rw [pending, pending, ← size]
  exact Memory.load_congr fun index below =>
    cell_eq_of_view_eq same (below.trans_le (sign.toNat_promote_le _))

namespace SameView

variable {sign : CharSign} {state other : DriverState} {call otherCall : WriteCall}

theorem commands_eq (same : SameView state other) : state.commands = other.commands :=
  congrArg View.commands same.view_eq

theorem circTotalSize_eq (same : SameView state other) :
    state.dev.circTotalSize = other.dev.circTotalSize :=
  congrArg View.circTotalSize same.view_eq

theorem cbSize_eq (same : SameView state other) : state.dev.cbSize = other.dev.cbSize :=
  congrArg View.cbSize same.view_eq

theorem full_eq (same : SameView state other) :
    state.dev.circBuffer.full = other.dev.circBuffer.full := by
  rw [Bool.eq_iff_iff, same.wellFormed.full_iff, same.otherWellFormed.full_iff,
    same.commands_eq]

theorem recordedSize_eq (same : SameView state other) (actualSize : Nat) :
    state.recordedSize sign actualSize = other.recordedSize sign actualSize := by
  rw [recordedSize, recordedSize, same.cbSize_eq]

theorem request_eq (same : SameView state other) (count : Nat) :
    state.request sign count = other.request sign count := by
  rw [request, request, same.cbSize_eq]

/-- The blocks of two calls with the same bytes agree. -/
theorem cell_staged_eq (same : SameView state other)
    (sameBytes : call.bytes = otherCall.bytes) (succeeds : state.Succeeds sign call)
    (otherSucceeds : other.Succeeds sign otherCall)
    (nonneg : 0 ≤ sign.promote state.dev.cbSize) (index : Nat) :
    (state.staged sign call call.bytes).mem.cell
        (state.staged sign call call.bytes).dev.cbBuffer index =
      (other.staged sign otherCall otherCall.bytes).mem.cell
        (other.staged sign otherCall otherCall.bytes).dev.cbBuffer index := by
  rw [cell_staged succeeds.granted succeeds.copies (by omega),
    cell_staged otherSucceeds.granted otherSucceeds.copies
      (by rw [← same.cbSize_eq]; omega),
    same.request_eq, sameBytes, same.cbSize_eq]
  split
  · split
    next old =>
      rw [← same.cbSize_eq, sign.promote_of_nonneg nonneg] at old
      exact cell_eq_of_view_eq same.view_eq (by omega)
    next => rfl
  · rfl

theorem place_staged_eq (same : SameView state other)
    (sameBytes : call.bytes = otherCall.bytes) (succeeds : state.Succeeds sign call)
    (otherSucceeds : other.Succeeds sign otherCall)
    (nonneg : 0 ≤ sign.promote state.dev.cbSize) (index : Nat) :
    (state.staged sign call call.bytes).mem.place
        (state.staged sign call call.bytes).dev.cbBuffer index =
      (other.staged sign otherCall otherCall.bytes).mem.place
        (other.staged sign otherCall otherCall.bytes).dev.cbBuffer index := by
  rw [Memory.place, Memory.place, sizeOf_staged succeeds.granted,
    sizeOf_staged otherSucceeds.granted, same.request_eq, sameBytes,
    ← sameBytes, same.cell_staged_eq sameBytes succeeds otherSucceeds nonneg, sameBytes]

/-- Successful calls with the same bytes keep two devices alike. -/
theorem writeStep (same : SameView state other)
    (sameBytes : call.bytes = otherCall.bytes) (continues : state.Continues sign call)
    (otherContinues : other.Continues sign otherCall) :
    SameView (writeStep sign state call) (Aesd.writeStep sign other otherCall) := by
  have succeeds := (retval_eq_iff sign state call).mp continues.1
  have otherSucceeds := (retval_eq_iff sign other otherCall).mp otherContinues.1
  have nonneg := continues.2.2.1
  have cells := same.cell_staged_eq sameBytes succeeds otherSucceeds nonneg
  refine ⟨wellFormed_writeStep sign state call same.wellFormed,
    wellFormed_writeStep sign other otherCall same.otherWellFormed, ?_⟩
  rw [view, view, pendingPlaces, pendingPlaces]
  by_cases present : newline ∈ call.bytes
  · obtain ⟨line, rest, isLine, missing⟩ := List.eq_append_cons_of_mem present
    have otherLine := sameBytes ▸ isLine
    rw [succeeds.cbSize_line same.wellFormed isLine missing,
      otherSucceeds.cbSize_line same.otherWellFormed otherLine missing,
      succeeds.circTotalSize_line same.wellFormed isLine missing,
      otherSucceeds.circTotalSize_line same.otherWellFormed otherLine missing,
      same.full_eq, same.circTotalSize_eq, same.recordedSize_eq]
    congr 1
    cases full : other.dev.circBuffer.full with
    | true =>
        rw [same.wellFormed.commands_line_of_full succeeds isLine missing
            (same.full_eq.trans full),
          same.otherWellFormed.commands_line_of_full otherSucceeds otherLine missing full,
          same.commands_eq, same.recordedSize_eq]
    | false =>
        rw [same.wellFormed.commands_line succeeds isLine missing (same.full_eq.trans full),
          same.otherWellFormed.commands_line otherSucceeds otherLine missing full,
          same.commands_eq, same.recordedSize_eq,
          Memory.load_congr fun index _ => cells index]
  · have otherMissing := sameBytes ▸ present
    have places := same.place_staged_eq sameBytes succeeds otherSucceeds nonneg
    rw [same.wellFormed.commands_unfinished succeeds present,
      same.otherWellFormed.commands_unfinished otherSucceeds otherMissing,
      succeeds.writeStep_eq, otherSucceeds.writeStep_eq, accept_of_notMem _ _ present,
      accept_of_notMem _ _ otherMissing, same.commands_eq]
    dsimp only
    rw [View.mk.injEq]
    refine ⟨rfl, ?_, same.circTotalSize_eq, ?_⟩
    · rw [show (state.staged sign call call.bytes).dev.cbSize = state.dev.cbSize from rfl,
        show (other.staged sign otherCall otherCall.bytes).dev.cbSize = other.dev.cbSize from rfl,
        same.cbSize_eq, sameBytes]
      exact List.map_congr_left fun index _ => sameBytes ▸ places index
    · exact congrArg₂ (fun size bytes => size + UInt8.ofNat (List.length bytes)) same.cbSize_eq
        sameBytes

end SameView

/-! ## The failing exits -/

section Failing

variable {sign : CharSign} {state : DriverState}

/-- A failed copy to the end of its block leaves the pending bytes where they were, if they were
in a block. -/
theorem WellFormed.view_staged (wf : state.WellFormed) {call : WriteCall}
    {buf : List UInt8} (granted : ¬state.Starves sign call buf)
    (bounded : buf.length ≤ maxRwCount) (nonneg : 0 ≤ sign.promote state.dev.cbSize) :
    (state.staged sign call buf).view = state.view ↔ none ∉ state.pendingPlaces := by
  have reserved := state.reserved sign call.grant buf.length
  have nonnull := staged_nonnull granted
  have value := sign.promote_of_nonneg nonneg
  have bound := state.dev.cbSize.toNat_lt
  have requested := request_of_lt sign state buf.length
    (by omega) (by unfold maxRwCount at bounded; omega)
  -- the pending places behind the copy, whatever they were
  have places : (state.staged sign call buf).pendingPlaces =
      (List.range state.dev.cbSize.toNat).map fun index =>
        some (state.mem.cell state.dev.cbBuffer index) := by
    apply List.map_congr_left
    intro index member
    have below : index < state.dev.cbSize.toNat := List.mem_range.mp member
    have bytes : state.dev.cbSize ≠ 0 := fun zero => by simp [zero] at below
    rw [Memory.place, sizeOf_staged granted, if_pos (by omega), Option.some.injEq]
    calc (state.staged sign call buf).mem.cell (state.staged sign call buf).dev.cbBuffer index
      _ = (state.reserve sign call.grant buf.length).2.cell
            (state.reserve sign call.grant buf.length).1 index :=
          Memory.cell_copyFromUser_outside _ _ _ _ _ (by omega)
      _ = state.mem.cell state.dev.cbBuffer index := by
          rw [reserved.contents nonnull index, if_pos ⟨by omega, bytes⟩]
  have others : (state.staged sign call buf).view = state.view ↔
      (state.staged sign call buf).pendingPlaces = state.pendingPlaces := by
    rw [view, view, wf.commands_staged, View.mk.injEq]
    exact ⟨fun same => same.2.1, fun same => ⟨rfl, same, rfl, rfl⟩⟩
  rw [others, places]
  constructor
  · intro same missing
    rw [← same] at missing
    simp at missing
  · intro held
    apply List.map_congr_left
    intro index member
    unfold Memory.place
    split
    next => rfl
    next outside =>
      have missing : none ∈ state.pendingPlaces := List.mem_map.mpr ⟨index, member, if_neg outside⟩
      exact absurd missing held

/-- A failed allocation loses the pending bytes, and nothing else. -/
theorem WellFormed.view_starved (wf : state.WellFormed) (call : WriteCall)
    (buf : List UInt8) :
    (state.starved sign call buf).view = state.view ↔
      ∀ place ∈ state.pendingPlaces, place = none := by
  have lost : (state.starved sign call buf).pendingPlaces =
      List.replicate state.pendingPlaces.length none := by
    rw [length_pendingPlaces]
    refine List.eq_replicate_iff.mpr ⟨length_pendingPlaces _, fun place member => ?_⟩
    obtain ⟨index, -, rfl⟩ := List.mem_map.mp member
    rfl
  have others : (state.starved sign call buf).view = state.view ↔
      (state.starved sign call buf).pendingPlaces = state.pendingPlaces := by
    rw [view, view, wf.commands_starved, View.mk.injEq]
    exact ⟨fun same => same.2.1, fun same => ⟨rfl, same, rfl, rfl⟩⟩
  rw [others, lost, eq_comm, List.eq_replicate_iff]
  simp

/-- An allocation that fails copies nothing. -/
theorem staysInBlocks_starved (call : WriteCall) (buf : List UInt8) :
    state.StaysInBlocks (state.starved sign call buf) := by
  refine ⟨_, (state.reserved sign call.grant buf.length).calls, fun recorded member => ?_⟩
  split at member
  next => simp at member
  next =>
    obtain rfl := List.mem_singleton.mp member
    trivial

/-- The copy of a call stays in its block exactly if it does not start in front of it. -/
theorem staysInBlocks_staged {call : WriteCall} {buf : List UInt8}
    (granted : ¬state.Starves sign call buf) (bounded : buf.length ≤ maxRwCount) :
    state.StaysInBlocks (state.staged sign call buf) ↔ 0 ≤ sign.promote state.dev.cbSize := by
  have reserved := state.reserved sign call.grant buf.length
  have calls : (state.staged sign call buf).mem.calls =
      .copyFromUser (sign.promote state.dev.cbSize) buf.length (state.request sign buf.length) ::
        (if state.dev.cbSize = 0 then []
          else [.krealloc state.dev.cbBuffer state.mem.live]) ++ state.mem.calls := by
    simp only [staged, Memory.calls_copyFromUser, reserved.sizeOf (staged_nonnull granted),
      reserved.calls, List.cons_append]
  have bound := (sign.promote_le_max state.dev.cbSize).trans (Int.ofNat_le.mpr sign.max_le)
  constructor
  · rintro ⟨recent, split, inBounds⟩
    rw [calls] at split
    have inside := inBounds _ (List.append_cancel_right split ▸ List.mem_cons_self)
    exact And.left inside
  · intro nonneg
    have requested := request_of_lt sign state buf.length
      (by omega) (by unfold maxRwCount at bounded; omega)
    refine ⟨_, calls, fun recorded member => ?_⟩
    rcases List.mem_cons.mp member with rfl | earlier
    · exact ⟨nonneg, by omega⟩
    · split at earlier
      next => simp at earlier
      next =>
        obtain rfl := List.mem_singleton.mp earlier
        trivial

end Failing

end DriverState

/-- Failure atomicity. A call is failure atomic exactly when its allocation does
not fail while a pending byte is in a block, and its copy does not fail unless the
pending bytes are held. -/
theorem fails_atomically_iff (sign : CharSign) (state : DriverState) (wf : state.WellFormed)
    (call : WriteCall) (bounded : call.bytes.length ≤ maxRwCount) :
    state.FailsAtomically sign call ↔ state.KeepsPending sign call := by
  constructor
  · intro atomic enters
    rcases aesdWrite_cases sign state call with ⟨outside, -, -⟩ |
      ⟨buf, entered, ⟨starves, result⟩ | ⟨granted, fails, result⟩ | ⟨granted, copies, -⟩⟩
    · exact absurd enters (outside _)
    · obtain rfl := entered.bytes_eq
      have same := (atomic (by simp [result, errnoEnomem])).1
      rw [writeStep, result] at same
      exact ⟨fun _ => (wf.view_starved call call.bytes).mp same, fun granted =>
        absurd starves granted⟩
    · obtain rfl := entered.bytes_eq
      obtain ⟨same, stays, -⟩ := atomic (by simp [result, errnoEfault])
      rw [writeStep, result] at same stays
      have nonneg := (DriverState.staysInBlocks_staged granted bounded).mp stays
      exact ⟨fun starves => absurd starves granted, fun _ _ =>
        ⟨nonneg, (wf.view_staged granted bounded nonneg).mp same⟩⟩
    · obtain rfl := entered.bytes_eq
      exact ⟨fun starves => absurd starves granted, fun _ fails => absurd copies fails⟩
  · intro keeps negative
    obtain ⟨viewed, stays⟩ : (writeStep sign state call).view = state.view ∧
        state.StaysInBlocks (writeStep sign state call) := by
      rw [writeStep]
      rcases aesdWrite_cases sign state call with ⟨-, -, same⟩ |
        ⟨buf, enters, ⟨starves, result⟩ | ⟨granted, fails, result⟩ | ⟨-, -, result⟩⟩
      · rw [same]
        exact ⟨rfl, [], rfl, by simp⟩
      · obtain rfl := enters.bytes_eq
        rw [result]
        exact ⟨(wf.view_starved call call.bytes).mpr ((keeps enters).1 starves),
          DriverState.staysInBlocks_starved call call.bytes⟩
      · obtain rfl := enters.bytes_eq
        obtain ⟨nonneg, held⟩ := (keeps enters).2 granted fails
        rw [result]
        exact ⟨(wf.view_staged granted bounded nonneg).mpr held,
          (DriverState.staysInBlocks_staged granted bounded).mpr nonneg⟩
      · rw [result] at negative
        omega
    refine ⟨viewed, stays, fun later other sameBytes along otherAlong => ?_⟩
    have related : DriverState.SameView (writeStep sign state call) state :=
      ⟨wellFormed_writeStep sign state call wf, wf, viewed⟩
    exact (Runs.simulation (fun _ _ _ _ same paired => same.writeStep paired) related
      sameBytes along otherAlong).commands_eq

/-- With `a` pending, a write whose user copy fails is failure atomic. -/
theorem fails_atomically_failed_copy :
    (writeStep .signed aesdInitModule (.granted [97] 0)).FailsAtomically .signed
      ⟨some [98], true, true, some 1, 1⟩ :=
  (fails_atomically_iff .signed _
    (wellFormed_writeStep _ _ _ DriverState.wellFormed_init) _ (by decide)).mpr
    fun _ => ⟨fun starves => absurd starves (by decide), fun _ _ => by decide⟩

/-- With 128 bytes pending where `char` is signed, a copy that fails has gone in front of
its block. -/
example :
    let state := writeStep .signed aesdInitModule (.granted (List.replicate 128 97) 0)
    ¬state.KeepsPending .signed ⟨some (List.replicate 200 98), true, true, some 1, 1⟩ := by
  intro state keeps
  have held := (keeps ⟨rfl, rfl, rfl⟩).2 (by decide +kernel) (by decide +kernel)
  revert held
  decide +kernel

/-- With `a` pending, a write whose `krealloc` fails loses the `a`. -/
theorem not_fails_atomically_failed_krealloc :
    ¬(writeStep .signed aesdInitModule (.granted [97] 0)).FailsAtomically .signed
      ⟨some [98], true, true, none, 0⟩ := by
  intro atomic
  have same := (atomic (by decide)).1
  revert same
  decide

end Aesd
