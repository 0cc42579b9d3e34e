import Aesd.CircularBuffer.Layout
import Aesd.Driver.Core
import Mathlib.Data.Fintype.EquivFin

/-!
# What one call of `aesd_write` can do

Every property of the write path is a case analysis on the exits of
`aesd_write`. This module states the exits once: what the allocation leaves
(`Reserved`), how a call ends (`aesdWrite_cases`), and what completing a command
does to the device, with and without room in the circular buffer. The later
modules use these and never unfold the operation.
-/

namespace Aesd

open KernelMemory MachineInt

namespace DriverState

/-- Bytes requested by the allocation of a write. -/
def request (sign : CharSign) (state : DriverState) (count : Nat) : Nat :=
  (toSizeT (sign.promote state.dev.cbSize + count)).toNat

/-- The environment proposes a block the allocation can get: a free one, or the
pending block itself when it is grown in place. -/
def Grantable (state : DriverState) (grant : Option BlockId) : Prop :=
  ∃ id, grant = some id ∧
    (id ∉ state.mem.live ∨ (state.dev.cbSize ≠ 0 ∧ state.dev.cbBuffer = some (.block id)))

instance (state : DriverState) (grant : Option BlockId) : Decidable (state.Grantable grant) :=
  match grant with
  | none => .isFalse fun ⟨_, impossible, _⟩ => by simp at impossible
  | some id =>
      decidable_of_iff
        (id ∉ state.mem.live ∨ (state.dev.cbSize ≠ 0 ∧ state.dev.cbBuffer = some (.block id)))
        ⟨fun able => ⟨id, rfl, able⟩, fun ⟨_, same, able⟩ => by
          obtain rfl := Option.some.inj same; exact able⟩

/-- The allocation of a write fails. -/
def Starves (sign : CharSign) (state : DriverState) (call : WriteCall) (buf : List UInt8) :
    Prop :=
  state.request sign buf.length ≠ 0 ∧ ¬state.Grantable call.grant

instance (sign : CharSign) (state : DriverState) (call : WriteCall) (buf : List UInt8) :
    Decidable (state.Starves sign call buf) :=
  inferInstanceAs (Decidable (_ ∧ _))

/-- What the allocation of a write leaves behind, whatever its outcome. Of the
old blocks only the pending one can be touched, and a pending block is either
kept under its own pointer or replaced. -/
structure Reserved (state : DriverState) (grant : Option BlockId) (size : Nat)
    (pointer : Pointer) (mem : Memory) : Prop where
  refused : pointer = none ↔ size ≠ 0 ∧ ¬state.Grantable grant
  valid : ValidIn mem.live pointer
  keeps : ∀ id ∈ state.mem.live,
    (state.dev.cbSize ≠ 0 → state.dev.cbBuffer ≠ some (.block id)) →
      id ∈ mem.live ∧ pointer ≠ some (.block id)
  origin : ∀ id ∈ mem.live, pointer = some (.block id) ∨
    (id ∈ state.mem.live ∧
      (pointer ≠ none → state.dev.cbSize ≠ 0 → state.dev.cbBuffer ≠ some (.block id)))
  sizeOf : pointer ≠ none → mem.sizeOf pointer = size
  contents : pointer ≠ none → ∀ index, mem.cell pointer index =
    if index < size ∧ state.dev.cbSize ≠ 0 then state.mem.cell state.dev.cbBuffer index
    else none
  frame : ∀ other, other ≠ pointer → (state.dev.cbSize ≠ 0 → other ≠ state.dev.cbBuffer) →
    mem.sizeOf other = state.mem.sizeOf other ∧
      ∀ index, mem.cell other index = state.mem.cell other index
  calls : mem.calls = (if state.dev.cbSize = 0 then []
    else [.krealloc state.dev.cbBuffer state.mem.live]) ++ state.mem.calls

/-- A new block, as `kmalloc` hands it out, when no block is given up for it. -/
private theorem Reserved.ofKmalloc {state : DriverState} {mem : Memory} (grant : Option BlockId)
    (size : Nat) (live : mem.live = state.mem.live) (block : mem.block = state.mem.block)
    (calls : mem.calls = (if state.dev.cbSize = 0 then []
      else [.krealloc state.dev.cbBuffer state.mem.live]) ++ state.mem.calls)
    (nothing : state.dev.cbSize ≠ 0 → ∀ id, state.dev.cbBuffer ≠ some (.block id)) :
    Reserved state grant size (mem.kmalloc grant size).1 (mem.kmalloc grant size).2 := by
  have sameSize : ∀ other, mem.sizeOf other = state.mem.sizeOf other := by
    intro other
    rcases other with - | - | id <;> simp [Memory.sizeOf, live, block]
  have sameCell : ∀ other index, mem.cell other index = state.mem.cell other index := by
    intro other index
    rcases other with - | - | id <;> simp [Memory.cell, live, block]
  have pendingCell : state.dev.cbSize ≠ 0 → ∀ index,
      state.mem.cell state.dev.cbBuffer index = none := by
    intro pending index
    rcases stored : state.dev.cbBuffer with - | - | id
    · rfl
    · rfl
    · exact absurd stored (nothing pending id)
  rcases mem.kmalloc_cases grant size with ⟨empty, result⟩ | ⟨nonzero, taken, result⟩ |
    ⟨id, nonzero, proposed, fresh, result⟩
  · rw [result]
    exact {
      refused := by simp [empty]
      valid := trivial
      keeps := fun id isLive _ => ⟨live ▸ isLive, by simp⟩
      origin := fun id isLive => .inr ⟨live ▸ isLive, fun _ pending => nothing pending id⟩
      sizeOf := fun _ => by simp [Memory.sizeOf, empty]
      contents := fun _ index => by simp [empty]
      frame := fun other _ _ => ⟨sameSize other, sameCell other⟩
      calls := calls }
  · rw [result]
    exact {
      refused := by
        refine iff_of_true rfl ⟨nonzero, ?_⟩
        rintro ⟨id, proposed, unused | ⟨pending, own⟩⟩
        · exact unused (live ▸ taken id proposed)
        · exact nothing pending id own
      valid := trivial
      keeps := fun id isLive _ => ⟨live ▸ isLive, by simp⟩
      origin := fun id isLive => .inr ⟨live ▸ isLive, by simp⟩
      sizeOf := by simp
      contents := by simp
      frame := fun other _ _ => ⟨sameSize other, sameCell other⟩
      calls := calls }
  · rw [result]
    exact {
      refused := by
        refine iff_of_false (by simp) ?_
        rintro ⟨-, unable⟩
        exact unable ⟨id, proposed, .inl (live ▸ fresh)⟩
      valid := by simp [ValidIn]
      keeps := fun other isLive _ =>
        ⟨by simp [live, isLive], fun same => fresh (by
          obtain rfl : id = other := by simpa using same
          exact live ▸ isLive)⟩
      origin := fun other isLive => by
        rcases Finset.mem_insert.mp isLive with rfl | old
        · exact .inl rfl
        · exact .inr ⟨live ▸ old, fun _ pending => nothing pending other⟩
      sizeOf := fun _ => mem.sizeOf_put_self id _
      contents := fun _ index => by
        rw [Memory.cell_put_self]
        by_cases pending : state.dev.cbSize = 0
        · simp [pending]
        · simp [pendingCell pending]
      frame := fun other different _ => ⟨by
          rw [Memory.sizeOf_put_of_ne _ _ different, sameSize], fun index => by
          rw [Memory.cell_put_of_ne _ _ different, sameCell]⟩
      calls := calls }

section Krealloc

variable {state : DriverState} {grant : Option BlockId} {size : Nat} {id : BlockId}

/-- The pending block is freed. -/
private theorem Reserved.ofFreed (pending : state.dev.cbSize ≠ 0)
    (stored : state.dev.cbBuffer = some (.block id)) (empty : size = 0) :
    Reserved state grant size (some .zeroSize)
      ((state.mem.record (.krealloc (some (.block id)) state.mem.live)).drop id) where
  refused := by simp [empty]
  valid := trivial
  keeps other isLive apart := by
    have ne : other ≠ id := fun same => apart pending (by rw [stored, same])
    simp [ne, isLive]
  origin other isLive := by
    have parts : other ≠ id ∧ other ∈ state.mem.live := by simpa using isLive
    exact .inr ⟨parts.2, fun _ _ => by simp [stored, parts.1.symm]⟩
  sizeOf _ := by simp [Memory.sizeOf, empty]
  contents _ index := by simp [empty]
  frame other _ apart := by
    rw [stored] at apart
    exact ⟨by rw [Memory.sizeOf_drop_of_ne _ (apart pending), Memory.sizeOf_record],
      fun index => by rw [Memory.cell_drop_of_ne _ (apart pending), Memory.cell_record]⟩
  calls := by simp [pending, stored]

/-- The pending block cannot grow. -/
private theorem Reserved.ofRefused (pending : state.dev.cbSize ≠ 0)
    (stored : state.dev.cbBuffer = some (.block id)) (nonzero : size ≠ 0)
    (taken : ∀ new, grant = some new → new ∈ state.mem.live ∧ new ≠ id) :
    Reserved state grant size none
      (state.mem.record (.krealloc (some (.block id)) state.mem.live)) where
  refused := by
    refine iff_of_true rfl ⟨nonzero, ?_⟩
    rintro ⟨other, proposed, unused | ⟨-, own⟩⟩
    · exact unused (taken other proposed).1
    · obtain rfl : id = other := by simpa [stored] using own
      exact (taken id proposed).2 rfl
  valid := trivial
  keeps other isLive _ := by simp [isLive]
  origin other isLive := .inr ⟨by simpa using isLive, by simp⟩
  sizeOf := by simp
  contents := by simp
  frame other _ _ := ⟨by simp, by simp⟩
  calls := by simp [pending, stored]

/-- The pending block grows in place. -/
private theorem Reserved.ofResized (pending : state.dev.cbSize ≠ 0)
    (stored : state.dev.cbBuffer = some (.block id)) (proposed : grant = some id) :
    let before := state.mem.record (.krealloc (some (.block id)) state.mem.live)
    Reserved state grant size (some (.block id))
      (before.put id ⟨size, before.cell (some (.block id))⟩) where
  refused := by
    refine iff_of_false (by simp) ?_
    rintro ⟨-, unable⟩
    exact unable ⟨id, proposed, .inr ⟨pending, stored⟩⟩
  valid := by simp [ValidIn]
  keeps other isLive apart := by
    have ne : id ≠ other := fun same => apart pending (by rw [stored, same])
    simp [ne, isLive]
  origin other isLive := by
    rcases Finset.mem_insert.mp isLive with rfl | old
    · exact .inl rfl
    · by_cases same : other = id
      · exact .inl (by rw [same])
      · exact .inr ⟨by simpa using old, fun _ _ => by simp [stored, Ne.symm same]⟩
  sizeOf _ := Memory.sizeOf_put_self _ _ _
  contents _ index := by
    rw [Memory.cell_put_self, stored]
    simp [pending]
  frame other different _ :=
    ⟨by rw [Memory.sizeOf_put_of_ne _ _ different, Memory.sizeOf_record],
      fun index => by rw [Memory.cell_put_of_ne _ _ different, Memory.cell_record]⟩
  calls := by simp [pending, stored]

/-- The pending bytes move to a new block. -/
private theorem Reserved.ofMoved (pending : state.dev.cbSize ≠ 0)
    (stored : state.dev.cbBuffer = some (.block id)) {new : BlockId}
    (proposed : grant = some new) (different : new ≠ id) (fresh : new ∉ state.mem.live) :
    let before := state.mem.record (.krealloc (some (.block id)) state.mem.live)
    Reserved state grant size (some (.block new))
      ((before.put new ⟨size, before.cell (some (.block id))⟩).drop id) where
  refused := by
    refine iff_of_false (by simp) ?_
    rintro ⟨-, unable⟩
    exact unable ⟨new, proposed, .inl fresh⟩
  valid := by simp [ValidIn, different]
  keeps other isLive apart := by
    have ne : other ≠ id := fun same => apart pending (by rw [stored, same])
    have neNew : new ≠ other := fun same => fresh (same ▸ isLive)
    simp [ne, neNew, isLive]
  origin other isLive := by
    have parts : other ≠ id ∧ (other = new ∨ other ∈ state.mem.live) := by
      simpa using isLive
    rcases parts with ⟨ne, rfl | old⟩
    · exact .inl rfl
    · exact .inr ⟨old, fun _ _ => by simp [stored, ne.symm]⟩
  sizeOf _ := by
    have apart : (some (.block new) : Pointer) ≠ some (.block id) := by simpa using different
    rw [Memory.sizeOf_drop_of_ne _ apart, Memory.sizeOf_put_self]
  contents _ index := by
    have apart : (some (.block new) : Pointer) ≠ some (.block id) := by simpa using different
    rw [Memory.cell_drop_of_ne _ apart, Memory.cell_put_self, stored]
    simp [pending]
  frame other ne apart := by
    rw [stored] at apart
    exact ⟨by rw [Memory.sizeOf_drop_of_ne _ (apart pending), Memory.sizeOf_put_of_ne _ _ ne,
        Memory.sizeOf_record],
      fun index => by rw [Memory.cell_drop_of_ne _ (apart pending),
        Memory.cell_put_of_ne _ _ ne, Memory.cell_record]⟩
  calls := by simp [pending, stored]

end Krealloc

/-- The allocation of a write, in all its outcomes. -/
theorem reserved (sign : CharSign) (state : DriverState) (grant : Option BlockId)
    (count : Nat) :
    Reserved state grant (state.request sign count) (state.reserve sign grant count).1
      (state.reserve sign grant count).2 := by
  unfold reserve request
  by_cases pending : state.dev.cbSize = 0
  · rw [if_pos pending]
    have zero : sign.promote state.dev.cbSize + count = count := by simp [pending]
    rw [zero]
    exact .ofKmalloc grant _ rfl rfl (by simp [pending]) fun nonzero =>
      absurd pending nonzero
  · rw [if_neg pending]
    rcases stored : state.dev.cbBuffer with - | - | id
    · exact .ofKmalloc grant _ rfl rfl (by simp [pending, stored]) (by simp [stored])
    · exact .ofKmalloc grant _ rfl rfl (by simp [pending, stored]) (by simp [stored])
    · rcases state.mem.krealloc_block_cases grant id
        (toSizeT (sign.promote state.dev.cbSize + count)).toNat with
        ⟨empty, result⟩ | ⟨nonzero, taken, result⟩ | ⟨-, proposed, result⟩ |
        ⟨new, -, proposed, different, fresh, result⟩
      · rw [result]
        exact .ofFreed pending stored empty
      · rw [result]
        exact .ofRefused pending stored nonzero taken
      · rw [result]
        exact .ofResized pending stored proposed
      · rw [result]
        exact .ofMoved pending stored proposed different fresh

/-! ## The exits of a call -/

/-- The device once the allocation of a write has succeeded and the user bytes
have been copied, as far as they could. -/
def staged (sign : CharSign) (state : DriverState) (call : WriteCall) (buf : List UInt8) :
    DriverState where
  dev := { state.dev with cbBuffer := (state.reserve sign call.grant buf.length).1 }
  mem := ((state.reserve sign call.grant buf.length).2.copyFromUser call.uncopied
    (state.reserve sign call.grant buf.length).1 (sign.promote state.dev.cbSize) buf).2

/-- The device once the allocation of a write has failed. -/
def starved (sign : CharSign) (state : DriverState) (call : WriteCall) (buf : List UInt8) :
    DriverState where
  dev := { state.dev with cbBuffer := none }
  mem := (state.reserve sign call.grant buf.length).2

end DriverState

/-- The call reaches the critical section with this buffer. -/
structure WriteCall.Enters (call : WriteCall) (buf : List UInt8) : Prop where
  buf_eq : call.buf = some buf
  privateData : call.privateData = true
  lock : call.lock = true

/-- The user copy of the call succeeds. -/
def WriteCall.Copies (call : WriteCall) (buf : List UInt8) : Prop :=
  min call.uncopied buf.length = 0

instance (call : WriteCall) (buf : List UInt8) : Decidable (call.Copies buf) :=
  inferInstanceAs (Decidable (_ = _))

/-- The four exits of `aesd_write`. -/
theorem aesdWrite_cases (sign : CharSign) (state : DriverState) (call : WriteCall) :
    ((∀ buf, ¬call.Enters buf) ∧ (aesdWrite sign state call).1 < 0 ∧
      (aesdWrite sign state call).2 = state) ∨
    ∃ buf, call.Enters buf ∧
      ((state.Starves sign call buf ∧
          aesdWrite sign state call = (-errnoEnomem, state.starved sign call buf)) ∨
        (¬state.Starves sign call buf ∧
          ¬call.Copies buf ∧
          aesdWrite sign state call = (-errnoEfault, state.staged sign call buf)) ∨
        (¬state.Starves sign call buf ∧
          call.Copies buf ∧
          aesdWrite sign state call =
            ((buf.length : Int), (state.staged sign call buf).accept sign buf))) := by
  unfold aesdWrite
  cases present : call.buf with
  | none =>
      exact .inl ⟨fun buf enters => absurd (present.symm.trans enters.buf_eq) (by simp),
        by simp [errnoEfault], rfl⟩
  | some buf =>
      by_cases ready : call.privateData = true ∧ call.lock = true
      · refine .inr ⟨buf, ⟨present, ready.1, ready.2⟩, ?_⟩
        have refused : (state.reserve sign call.grant buf.length).1 = none ↔
            state.Starves sign call buf := (state.reserved sign call.grant buf.length).refused
        simp only [ready.1, ready.2, Bool.true_eq_false, if_false, DriverState.writeLocked]
        by_cases failed : (state.reserve sign call.grant buf.length).1 = none
        · refine .inl ⟨refused.mp failed, ?_⟩
          simp [failed, DriverState.starved]
        · rw [← refused]
          by_cases copied : call.Copies buf
          · refine .inr (.inr ⟨failed, copied, ?_⟩)
            have left : (Memory.copyFromUser (state.reserve sign call.grant buf.length).2
              call.uncopied (state.reserve sign call.grant buf.length).1
              (sign.promote state.dev.cbSize) buf).1 = 0 := copied
            rw [if_neg failed, if_neg (not_not.mpr left)]
            rfl
          · refine .inr (.inl ⟨failed, copied, ?_⟩)
            have left : (Memory.copyFromUser (state.reserve sign call.grant buf.length).2
              call.uncopied (state.reserve sign call.grant buf.length).1
              (sign.promote state.dev.cbSize) buf).1 ≠ 0 := copied
            rw [if_neg failed, if_pos left]
            rfl
      · refine .inl ⟨fun other enters => ready ⟨enters.privateData, enters.lock⟩, ?_⟩
        by_cases opened : call.privateData = true
        · have busy : call.lock = false := by simpa [opened] using ready
          simp [opened, busy, errnoEintr]
        · simp [opened, errnoEfault]

theorem WriteCall.Enters.bytes_eq {call : WriteCall} {buf : List UInt8}
    (enters : call.Enters buf) : call.bytes = buf := by
  simp [WriteCall.bytes, enters.buf_eq]

namespace DriverState

/-- Nothing fails in the call: it enters, gets its block and copies its bytes. -/
structure Succeeds (sign : CharSign) (state : DriverState) (call : WriteCall) : Prop where
  enters : call.Enters call.bytes
  granted : ¬state.Starves sign call call.bytes
  copies : call.Copies call.bytes

theorem succeeds_iff (sign : CharSign) (state : DriverState) (call : WriteCall) :
    state.Succeeds sign call ↔
      call.buf ≠ none ∧ call.privateData = true ∧ call.lock = true ∧
        ¬state.Starves sign call call.bytes ∧ call.Copies call.bytes := by
  constructor
  · rintro ⟨⟨present, opened, locked⟩, granted, copies⟩
    exact ⟨by simp [present], opened, locked, granted, copies⟩
  · rintro ⟨present, opened, locked, granted, copies⟩
    obtain ⟨buf, isBuf⟩ := Option.ne_none_iff_exists'.mp present
    exact ⟨⟨by simp [WriteCall.bytes, isBuf], opened, locked⟩, granted, copies⟩

instance (sign : CharSign) (state : DriverState) (call : WriteCall) :
    Decidable (state.Succeeds sign call) :=
  decidable_of_iff _ (succeeds_iff sign state call).symm

/-- A call that proposes a free block succeeds. -/
theorem succeeds_granted (sign : CharSign) (state : DriverState) (bytes : List UInt8)
    {id : BlockId} (fresh : id ∉ state.mem.live) :
    state.Succeeds sign (.granted bytes id) where
  enters := ⟨rfl, rfl, rfl⟩
  granted starves := starves.2 ⟨id, rfl, .inl fresh⟩
  copies := Nat.zero_min _

/-- In every state any bytes can be written by a successful call. -/
theorem exists_succeeds (sign : CharSign) (state : DriverState) (bytes : List UInt8) :
    ∃ call : WriteCall, call.bytes = bytes ∧ state.Succeeds sign call := by
  obtain ⟨id, fresh⟩ := Infinite.exists_notMem_finset state.mem.live
  exact ⟨.granted bytes id, rfl, succeeds_granted sign state bytes fresh⟩

/-- A successful call returns the whole count and goes on to accept its bytes. -/
theorem Succeeds.aesdWrite_eq {sign : CharSign} {state : DriverState} {call : WriteCall}
    (succeeds : state.Succeeds sign call) :
    aesdWrite sign state call =
      ((call.bytes.length : Int), (state.staged sign call call.bytes).accept sign call.bytes) := by
  rcases aesdWrite_cases sign state call with ⟨outside, -, -⟩ |
    ⟨buf, enters, ⟨starves, -⟩ | ⟨-, missed, -⟩ | ⟨-, -, result⟩⟩
  · exact absurd succeeds.enters (outside _)
  · exact absurd (enters.bytes_eq ▸ starves) succeeds.granted
  · exact absurd succeeds.copies (enters.bytes_eq ▸ missed)
  · rw [enters.bytes_eq, result]

theorem Succeeds.writeStep_eq {sign : CharSign} {state : DriverState} {call : WriteCall}
    (succeeds : state.Succeeds sign call) :
    writeStep sign state call =
      (state.staged sign call call.bytes).accept sign call.bytes := by
  rw [writeStep, succeeds.aesdWrite_eq]

/-- Every other call returns a negative value. -/
theorem retval_neg_of_not_succeeds {sign : CharSign} {state : DriverState} {call : WriteCall}
    (fails : ¬state.Succeeds sign call) : (aesdWrite sign state call).1 < 0 := by
  rcases aesdWrite_cases sign state call with ⟨-, negative, -⟩ |
    ⟨buf, enters, ⟨-, result⟩ | ⟨-, -, result⟩ | ⟨granted, copies, -⟩⟩
  · exact negative
  · simp [result, errnoEnomem]
  · simp [result, errnoEfault]
  · obtain rfl := enters.bytes_eq
    exact absurd ⟨enters, granted, copies⟩ fails

/-- The return value is negative exactly when something fails. -/
theorem retval_neg_iff (sign : CharSign) (state : DriverState) (call : WriteCall) :
    (aesdWrite sign state call).1 < 0 ↔ ¬state.Succeeds sign call := by
  refine ⟨fun negative succeeds => ?_, retval_neg_of_not_succeeds⟩
  rw [succeeds.aesdWrite_eq] at negative
  omega

/-- The return value acknowledges the whole buffer exactly when nothing fails. -/
theorem retval_eq_iff (sign : CharSign) (state : DriverState) (call : WriteCall) :
    (aesdWrite sign state call).1 = call.bytes.length ↔ state.Succeeds sign call := by
  refine ⟨fun whole => ?_, fun succeeds => by rw [succeeds.aesdWrite_eq]⟩
  by_contra fails
  have negative := retval_neg_of_not_succeeds fails
  omega

/-! ## Completing a command -/

theorem accept_of_newline (sign : CharSign) (state : DriverState) {buf : List UInt8} {i : Nat}
    (found : buf.findIdx? (· = newline) = some i) :
    state.accept sign buf = state.complete sign (i + 1) := by
  simp [accept, found]

theorem accept_of_none (sign : CharSign) (state : DriverState) {buf : List UInt8}
    (missing : buf.findIdx? (· = newline) = none) :
    state.accept sign buf =
      { dev := { state.dev with cbSize := state.dev.cbSize + .ofNat buf.length }
        mem := state.mem } := by
  simp [accept, missing]

theorem accept_of_notMem (sign : CharSign) (state : DriverState) {buf : List UInt8}
    (missing : newline ∉ buf) :
    state.accept sign buf =
      { dev := { state.dev with cbSize := state.dev.cbSize + .ofNat buf.length }
        mem := state.mem } :=
  accept_of_none sign state (Lines.findIdx?_of_notMem missing)

/-- Only the bytes up to the first newline are kept. -/
theorem accept_line (sign : CharSign) (state : DriverState) {line : List UInt8}
    (missing : newline ∉ line) (rest : List UInt8) :
    state.accept sign (line ++ newline :: rest) = state.complete sign (line.length + 1) :=
  accept_of_newline sign state (Lines.findIdx?_line missing rest)

/-- The size recorded for a command completed by `actualSize` bytes: the pending
length is a `char`. -/
def recordedSize (sign : CharSign) (state : DriverState) (actualSize : Nat) : UInt64 :=
  toSizeT (sign.promote (state.dev.cbSize + .ofNat actualSize))

/-- A length in the range of `char` is recorded as it is. -/
theorem toNat_recordedSize_of_le (sign : CharSign) (state : DriverState) (actualSize : Nat)
    (nonneg : 0 ≤ sign.promote state.dev.cbSize)
    (fits : sign.promote state.dev.cbSize + actualSize ≤ sign.max) :
    ((state.recordedSize sign actualSize).toNat : Int) =
      sign.promote state.dev.cbSize + actualSize := by
  have bound := sign.max_le
  rw [recordedSize, sign.promote_add_of_le _ _ nonneg fits]
  exact toNat_toSizeT_of_lt (by omega) (by omega)

/-- A negative length is recorded as a huge one. -/
theorem toNat_recordedSize_of_neg (sign : CharSign) (state : DriverState) (actualSize : Nat)
    (negative : sign.promote (state.dev.cbSize + .ofNat actualSize) < 0) :
    ((state.recordedSize sign actualSize).toNat : Int) =
      2 ^ 64 + sign.promote (state.dev.cbSize + .ofNat actualSize) := by
  have lower := sign.neg_le_promote (state.dev.cbSize + .ofNat actualSize)
  rw [recordedSize, toNat_toSizeT]
  omega

/-- With room in the circular buffer the command becomes its newest entry. -/
theorem complete_of_open (sign : CharSign) (state : DriverState) (actualSize : Nat)
    (room : state.dev.circBuffer.full = false) :
    state.complete sign actualSize =
      { dev :=
          { circBuffer := (state.dev.circBuffer.aesdCircularBufferAddEntry
              ⟨state.dev.cbBuffer, state.recordedSize sign actualSize⟩).2
            cbBuffer := state.dev.cbBuffer
            cbSize := 0
            circTotalSize := state.dev.circTotalSize + state.recordedSize sign actualSize }
        mem := state.mem } := by
  unfold complete recordedSize
  simp only [AesdCircularBuffer.fst_addEntry, room, Bool.false_eq_true, if_false]

/-- On a full circular buffer the returned slot is the one the new entry went to.
So the block of the new command is freed, its pointer is cleared, and the total
is left as it was; the block of the oldest command is not touched. -/
theorem complete_of_full (sign : CharSign) (state : DriverState) (actualSize : Nat)
    (wf : state.dev.circBuffer.WellFormed) (full : state.dev.circBuffer.full = true)
    (nonnull : state.dev.cbBuffer ≠ none) :
    state.complete sign actualSize =
      { dev :=
          { circBuffer := (state.dev.circBuffer.aesdCircularBufferAddEntry
              ⟨none, state.recordedSize sign actualSize⟩).2
            cbBuffer := state.dev.cbBuffer
            cbSize := 0
            circTotalSize := state.dev.circTotalSize }
        mem := state.mem.kfree state.dev.cbBuffer } := by
  have together := wf.full_offs full
  have stored : (state.dev.circBuffer.aesdCircularBufferAddEntry
      ⟨state.dev.cbBuffer, state.recordedSize sign actualSize⟩).2.slot
        state.dev.circBuffer.outOffs =
      ⟨state.dev.cbBuffer, state.recordedSize sign actualSize⟩ :=
    together ▸ AesdCircularBuffer.slot_addEntry_self _ _ wf.inOffs_lt
  have stillFull : (state.dev.circBuffer.aesdCircularBufferAddEntry
      ⟨state.dev.cbBuffer, state.recordedSize sign actualSize⟩).2.full = true := by
    simp [AesdCircularBuffer.snd_addEntry, full]
  have cleared := state.dev.circBuffer.setSlot_addEntry
    ⟨state.dev.cbBuffer, state.recordedSize sign actualSize⟩
    ⟨none, state.recordedSize sign actualSize⟩
  rw [together] at cleared
  unfold complete
  simp only [AesdCircularBuffer.fst_addEntry, full, if_true]
  rw [show toSizeT (sign.promote (state.dev.cbSize + UInt8.ofNat actualSize)) =
    state.recordedSize sign actualSize from rfl, stored, if_pos ⟨nonnull, stillFull⟩, cleared]
  congr 2
  grind

end DriverState

end Aesd
