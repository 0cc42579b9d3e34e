import Aesd.Driver.Concurrency

/-!
# The seek that takes no lock

`aesd_llseek` reads the total size without the mutex, so it may read it in the middle of a write.
A write changes the total once, unless a command is evicted: then it adds the size of the new
command, and the next statement takes a size off again. That is the size in the slot of the evicted
command, which the new one is in by then, so the write leaves the total as it was. In between a
seek is measured by a total that has the new command in it.
-/

namespace Aesd

open KernelMemory MachineInt Sections

/-- A seek looks at the total size only. -/
theorem aesdLlseekCur_congr {dev other : AesdDev} (same : dev.circTotalSize = other.circTotalSize)
    (fPos off : Int) (whence : Whence) :
    aesdLlseekCur dev fPos off whence = aesdLlseekCur other fPos off whence := by
  rw [aesdLlseekCur, aesdLlseekCur, same]

/-! ## The total size in a section -/

/-- The write has stored its command, and this is the entry it got back. -/
def Added (sign : CharSign) (found : AesdDev) (state : DriverState) (returnBuff : Option Nat) :
    Prop :=
  (returnBuff, state.dev.circBuffer) = found.circBuffer.aesdCircularBufferAddEntry
    ⟨state.dev.cbBuffer, toSizeT (sign.promote state.dev.cbSize)⟩

/-- The slots and the total size where a write is, for those that it has found. Nothing is said of
the places behind the last statement that changes the total. -/
def WriteLocal.CountsFrom (sign : CharSign) (found : AesdDev) (state : DriverState) :
    WriteLocal → Prop
  | .free _ | .clear _ | .reset | .errHandle _ => True
  | .evict returnBuff => Added sign found state returnBuff ∧
      state.dev.circTotalSize = found.circTotalSize + toSizeT (sign.promote state.dev.cbSize)
  | .addTotal returnBuff =>
      Added sign found state returnBuff ∧ state.dev.circTotalSize = found.circTotalSize
  | .addEntry entry => entry = ⟨state.dev.cbBuffer, toSizeT (sign.promote state.dev.cbSize)⟩ ∧
      state.dev.circBuffer = found.circBuffer ∧ state.dev.circTotalSize = found.circTotalSize
  | _ => state.dev.circBuffer = found.circBuffer ∧ state.dev.circTotalSize = found.circTotalSize

theorem countsFrom_writeStatement {sign : CharSign} {call : WriteCall} {buf : List UInt8}
    {found : AesdDev} {locals next : WriteLocal} {state between : DriverState}
    (counts : locals.CountsFrom sign found state)
    (goes : writeStatement sign call buf locals state = (between, .goOn next)) :
    next.CountsFrom sign found between := by
  cases locals with
  | allocate =>
      cases goes
      exact counts
  | copy =>
      simp only [writeStatement] at goes
      split at goes
      next =>
        cases goes
        trivial
      next =>
        obtain ⟨rfl, outcome⟩ := Prod.mk.inj goes
        split at outcome
        next =>
          cases outcome
          trivial
        next =>
          cases outcome
          exact counts
  | scan i =>
      simp only [writeStatement] at goes
      split at goes
      next =>
        cases goes
        exact counts
      next =>
        obtain ⟨rfl, outcome⟩ := Prod.mk.inj goes
        split at outcome
        next =>
          cases outcome
          exact counts
        next =>
          cases outcome
          exact counts
  | complete actualSize =>
      cases goes
      exact ⟨rfl, counts⟩
  | addEntry entry =>
      obtain ⟨rfl, sameBuffer, sameTotal⟩ := counts
      cases goes
      refine ⟨?_, sameTotal⟩
      rw [Added, ← sameBuffer]
      rfl
  | addTotal returnBuff =>
      cases goes
      exact ⟨counts.1, congrArg (· + toSizeT (sign.promote state.dev.cbSize)) counts.2⟩
  | evict returnBuff =>
      cases returnBuff with
      | none =>
          cases goes
          trivial
      | some index =>
          simp only [writeStatement] at goes
          split at goes
          next =>
            cases goes
            trivial
          next =>
            cases goes
            trivial
  | free | clear | reset | extend =>
      cases goes
      trivial
  | errHandle => cases goes

theorem countsFrom_write {sign : CharSign} {call : WriteCall} {buf : List UInt8}
    {locals : WriteLocal} {found state : DriverState}
    (comes : Comes (writeStatement sign call buf) .allocate found locals state) :
    locals.CountsFrom sign found.dev state := by
  induction comes with
  | enters => exact ⟨rfl, rfl⟩
  | goesOn _ goes ih => exact countsFrom_writeStatement ih goes

/-- The slot that an addition hands back holds the new command. -/
theorem Added.slot_eq {sign : CharSign} {found : AesdDev} {state : DriverState} {index : Nat}
    (added : Added sign found state (some index)) (ring : found.circBuffer.WellFormed) :
    state.dev.circBuffer.slot index =
      ⟨state.dev.cbBuffer, toSizeT (sign.promote state.dev.cbSize)⟩ := by
  obtain ⟨returned, buffer⟩ := Prod.ext_iff.mp added
  dsimp only at returned buffer
  rw [AesdCircularBuffer.fst_addEntry] at returned
  split at returned
  case isFalse => cases returned
  case isTrue full =>
    obtain rfl := Option.some.inj returned
    rw [buffer, ← ring.full_offs full]
    exact AesdCircularBuffer.slot_addEntry_self _ _ ring.inOffs_lt

/-- Between calls the device is well-formed. -/
theorem wellFormed_replay (sign : CharSign) (order : List (Nat × DeviceCall)) :
    (replay (deviceCall sign) aesdInitModule order).WellFormed := by
  refine Runs.invariant_always DriverState.WellFormed ?_ order DriverState.wellFormed_init
  rintro state ⟨number, call⟩ wf
  cases call with
  | write call => exact wellFormed_writeStep sign state call wf
  | read call fPos => exact wf.aesdRead call fPos
  | ioctl => exact wf

theorem dev_readStatement (call : ReadCall) (locals : ReadLocal) (state : DriverState) :
    (readStatement call locals state).1.dev = state.dev := by
  cases locals with
  | find | errHandle => rfl
  | test fPos tempBuffer offset =>
      cases tempBuffer with
      | none => rfl
      | some index =>
          dsimp only [readStatement]
          split
          next => rfl
          next => rfl
  | advance fPos index offset =>
      dsimp only [readStatement]
      split
      next => rfl
      next => rfl
  | copy => rfl

/-- A read and an `ioctl` leave the device as they find it. -/
theorem dev_comes {Local : Type*} {Result : Type*}
    {step : Local → DriverState → DriverState × Outcome Local Result}
    (leaves : ∀ locals state, (step locals state).1.dev = state.dev)
    {entry locals : Local} {found state : DriverState}
    (comes : Comes step entry found locals state) : state.dev = found.dev := by
  induction comes with
  | enters => rfl
  | @goesOn locals next shared between _ goes ih =>
      have same := leaves locals shared
      rw [goes] at same
      exact same.trans ih

/-! ## What a seek is measured by -/

/-- A write has added its command to a full buffer, and is about to take a size off the total. -/
def Evicting (reached : System DriverState DeviceCall DeviceLocal DeviceResult) (index : Nat) :
    Prop :=
  ∃ (number : Nat) (call : WriteCall) (buf : List UInt8),
    reached.tasks[number]? = some (.inside (.write call) (.write call buf (.evict (some index)))) ∧
      (reached.shared.dev.circBuffer.slot index).buffptr ≠ none ∧
      reached.shared.dev.circBuffer.full = true

/-- The device after all calls that have had their turn, or after all before the one in its
section. -/
def BetweenCalls (sign : CharSign) (start : DriverState)
    (reached : System DriverState DeviceCall DeviceLocal DeviceResult) (state : DriverState) :
    Prop :=
  state = replay (deviceCall sign) start reached.order ∨
    ∃ (number : Nat) (call : DeviceCall) (before behind : List (Nat × DeviceCall)),
      reached.owner = some number ∧
      reached.order = before ++ (number, call) :: behind ∧
      state = replay (deviceCall sign) start before

section Sections

variable {sign : CharSign} {start : DriverState}
  {reached : System DriverState DeviceCall DeviceLocal DeviceResult}

/-- A write leads where its statements lead. -/
theorem final_write {call : WriteCall} {buf : List UInt8} {locals : WriteLocal}
    {state : DriverState} {retval : Int} {result : DeviceResult} {final after : DriverState}
    (finishes : Finishes (deviceStatement sign) (.write call buf locals) state (result, final))
    (ends : Finishes (writeStatement sign call buf) locals state (retval, after)) :
    final = after := by
  have mapped := ends.map (deviceStatement_write sign call buf)
  exact congrArg Prod.snd (finishes.unique mapped)

/-- Where a write is past its last change of the total, the total is the final one. -/
theorem total_final {call : WriteCall} {buf : List UInt8} {locals : WriteLocal}
    {state final : DriverState} {result : DeviceResult}
    (finishes : Finishes (deviceStatement sign) (.write call buf locals) state (result, final))
    (past : match locals with
      | .free _ | .clear _ | .reset | .errHandle _ | .evict none => True
      | .evict (some index) => ¬((state.dev.circBuffer.slot index).buffptr ≠ none ∧
          state.dev.circBuffer.full = true)
      | _ => False) :
    state.dev.circTotalSize = final.dev.circTotalSize := by
  cases locals with
  | allocate | copy | scan | complete | addEntry | addTotal | extend => exact past.elim
  | evict returnBuff =>
      rw [final_write finishes (finishes_evict state returnBuff)]
      cases returnBuff with
      | none => rfl
      | some index =>
          rw [evicted, if_neg past]
  | free index =>
      rw [final_write finishes (.more rfl (.more rfl (finishes_reset _)))]
  | clear index =>
      rw [final_write finishes (.more rfl (finishes_reset _))]
  | reset => rw [final_write finishes (finishes_reset state)]
  | errHandle retval => rw [final_write finishes (finishes_errHandle retval state)]

/-- In a section the total is the one that was found, or the final one already, unless a write is
about to take a size off it. -/
theorem total_inside {call : DeviceCall} {entry locals : DeviceLocal}
    {found state final : DriverState} {result : DeviceResult}
    (enters : enterCall call = .inr entry)
    (comes : Comes (deviceStatement sign) entry found locals state)
    (finishes : Finishes (deviceStatement sign) locals state (result, final))
    (steady : ∀ write buf index, call = .write write →
      locals = .write write buf (.evict (some index)) →
        ¬((state.dev.circBuffer.slot index).buffptr ≠ none ∧
          state.dev.circBuffer.full = true)) :
    state.dev.circTotalSize = found.dev.circTotalSize ∨
      state.dev.circTotalSize = final.dev.circTotalSize := by
  cases call with
  | read call fPos =>
      rcases enterRead_cases call fPos with ⟨retval, early, -⟩ | ⟨-, isEntry⟩
      · cases early.symm.trans enters
      · cases isEntry.symm.trans enters
        obtain ⟨_, -, path⟩ := comes.of_map (deviceStatement_read sign call)
        exact .inl (congrArg AesdDev.circTotalSize (dev_comes (dev_readStatement call) path))
  | ioctl call fPos =>
      rcases enterIoctl_cases call fPos with ⟨retval, early, -⟩ | ⟨seek, isEntry, -⟩
      · cases early.symm.trans enters
      · cases isEntry.symm.trans enters
        obtain ⟨_, -, path⟩ := comes.of_map (deviceStatement_ioctl sign seek fPos)
        have same : ∀ locals state, (ioctlStatement seek fPos locals state).1.dev = state.dev :=
          fun locals state => congrArg DriverState.dev (state_ioctlStatement seek fPos locals state)
        exact .inl (congrArg AesdDev.circTotalSize (dev_comes same path))
  | write call =>
      rcases enterWrite_cases sign call with ⟨retval, early, -⟩ | ⟨buf, isEntry, -⟩
      · cases early.symm.trans enters
      · cases isEntry.symm.trans enters
        obtain ⟨place, rfl, path⟩ := comes.of_map (deviceStatement_write sign call buf)
        cases place with
        | allocate | copy | scan | complete | addEntry | addTotal | extend =>
            have counts := countsFrom_write path
            simp only [WriteLocal.CountsFrom] at counts
            exact .inl (by simp only [counts])
        | free | clear | reset | errHandle => exact .inr (total_final finishes trivial)
        | evict returnBuff =>
            apply Or.inr
            apply total_final finishes
            cases returnBuff with
            | none => trivial
            | some index => exact steady call buf index rfl rfl

end Sections

/-- While no write is about to take a size off the total, a seek that takes no lock is answered as
between two calls. While one is, the total is the one that it has found and the size of the new
command. What it takes off is that size again: its slot holds the new command by now, and the
write leaves the total that it has found. -/
theorem llseek_between_calls (sign : CharSign) (steps : List (Step DeviceCall)) :
    let reached := system (deviceCode sign) aesdInitModule steps
    ((∀ index, ¬Evicting reached index) → ∃ state, BetweenCalls sign aesdInitModule reached state ∧
      ∀ fPos off whence, aesdLlseekCur reached.shared.dev fPos off whence =
        aesdLlseekCur state.dev fPos off whence) ∧
    ∀ index, Evicting reached index → ∃ number call before behind,
      reached.order = before ++ (number, call) :: behind ∧
      (reached.shared.dev.circBuffer.slot index).size =
        toSizeT (sign.promote reached.shared.dev.cbSize) ∧
      reached.shared.dev.circTotalSize =
        (replay (deviceCall sign) aesdInitModule before).dev.circTotalSize +
          (reached.shared.dev.circBuffer.slot index).size ∧
      (replay (deviceCall sign) aesdInitModule reached.order).dev.circTotalSize =
        (replay (deviceCall sign) aesdInitModule before).dev.circTotalSize := by
  intro reached
  have consistent := consistent_system (implements_deviceCode sign) aesdInitModule steps
  constructor
  case left =>
    intro steady
    -- it is enough that the total is the one of a state between two calls
    suffices seen : ∃ state, BetweenCalls sign aesdInitModule reached state ∧
        reached.shared.dev.circTotalSize = state.dev.circTotalSize by
      obtain ⟨state, between, same⟩ := seen
      exact ⟨state, between, aesdLlseekCur_congr same⟩
    cases owns : reached.owner with
    | none => exact ⟨_, .inl rfl, by rw [consistent.free owns]⟩
    | some holder =>
        obtain ⟨call, locals, selected⟩ := consistent.holder holder owns
        obtain ⟨before, behind, entry, result, place, enters, comes, finishes⟩ :=
          inside_run (implements_deviceCode sign) aesdInitModule steps selected
        rcases total_inside enters comes finishes (by
          rintro write buf index rfl rfl evicts
          exact steady index ⟨holder, write, buf, selected, evicts⟩) with same | same
        · exact ⟨_, .inr ⟨holder, call, before, behind, owns, place, rfl⟩, same⟩
        · exact ⟨_, .inl rfl, same⟩
  case right =>
    intro index evicting
    obtain ⟨number, call, buf, selected, evicts⟩ := evicting
    obtain ⟨before, behind, entry, result, place, enters, comes, finishes⟩ :=
      inside_run (implements_deviceCode sign) aesdInitModule steps selected
    obtain ⟨added, total⟩ : WriteLocal.CountsFrom sign
        (replay (deviceCall sign) aesdInitModule before).dev reached.shared
        (.evict (some index)) := by
      rcases enterWrite_cases sign call with ⟨retval, early, -⟩ | ⟨found, isEntry, -⟩
      · cases early.symm.trans enters
      · cases isEntry.symm.trans enters
        obtain ⟨place, isPlace, path⟩ := comes.of_map (deviceStatement_write sign call found)
        cases isPlace
        exact countsFrom_write path
    have slot := added.slot_eq (wellFormed_replay sign before).ring
    have after : (replay (deviceCall sign) aesdInitModule reached.order).dev.circTotalSize =
        reached.shared.dev.circTotalSize - (reached.shared.dev.circBuffer.slot index).size := by
      rw [final_write finishes (finishes_evict _ _), evicted, if_pos evicts]
    refine ⟨number, .write call, before, behind, place, ?_, ?_, ?_⟩
    · rw [slot]
    · rw [total, slot]
    · rw [after, total, slot, UInt64.add_sub_cancel]

/-- Behind ten lines of one byte a line of six is under way: the total is 16 in the middle of it,
and 10 before it and after it. -/
example :
    let lines := (List.range 10).flatMap fun number =>
      .call (.write (.granted [newline] number)) :: List.replicate 10 (Step.advance number)
    let longer := DeviceCall.write (.granted [97, 98, 99, 100, 101, newline] 10)
    let before := system (deviceCode .signed) aesdInitModule lines
    let during := system (deviceCode .signed) aesdInitModule
      (lines ++ .call longer :: List.replicate 12 (.advance 10))
    let after := system (deviceCode .signed) aesdInitModule
      (lines ++ .call longer :: List.replicate 17 (.advance 10))
    before.shared.dev.circTotalSize = 10 ∧ during.shared.dev.circTotalSize = 16 ∧
      after.shared.dev.circTotalSize = 10 ∧ after.owner = none := by
  decide +kernel

end Aesd
