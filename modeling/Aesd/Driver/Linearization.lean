import Aesd.Driver.Concurrency
import Aesd.Driver.Refinement

/-!
# Calls that run at once are calls of the abstract device

The statements of any number of calls may come in any order; each call still has the result that
the abstract device gives at its place in one order. The order is the one in which the calls obtain
the mutex, so a call that has returned before another one is made comes before it.
-/

namespace Aesd

open KernelMemory MachineInt Sections

/-! ## The abstract device and its calls -/

/-- What a call leaves to its process: after a read that fails, the kernel does not store the
position. -/
def DeviceCall.leaves : DeviceCall → DeviceResult → DeviceResult
  | .read _ fPos, .read retval data next => .read retval data (if retval < 0 then fPos else next)
  | _, result => result

namespace Log

/-- A call on the abstract device, at the position it is handed. -/
def deviceCall : DeviceCall → Log → DeviceResult × Log
  | .write call, log => (.write (log.write call).1.retval, (log.write call).2)
  | .read call fPos, log =>
      let (result, next) := log.read call fPos.toNat
      (.read result.retval result.data next, log)
  | .ioctl call fPos, log =>
      let (result, next) := log.ioctl call fPos.toNat
      (.ioctl result.retval next, log)

/-- A call does not shorten the log. -/
theorem Within.of_deviceCall {sign : CharSign} {log : Log} (call : DeviceCall)
    (within : (deviceCall call log).2.Within sign) : log.Within sign := by
  cases call with
  | write => exact Within.of_write within
  | read => exact within
  | ioctl => exact within

end Log

/-- What the calls have to keep to: a newline is the last byte of a write, a write is not longer
than the kernel makes it, memory does not run out in a command some bytes of which are pending, and
the position is one of an open file. -/
def DriverState.Orderly (state : DriverState) : Nat × DeviceCall → Prop
  | (_, .write call) =>
      newline ∉ call.bytes.dropLast ∧ call.bytes.length ≤ maxRwCount ∧ state.Supplies call
  | (_, .read _ fPos) => 0 ≤ fPos ∧ fPos < 2 ^ 63
  | (_, .ioctl _ fPos) => 0 ≤ fPos

instance (state : DriverState) : (entry : Nat × DeviceCall) → Decidable (state.Orderly entry)
  | (_, .write _) => inferInstanceAs (Decidable (_ ∧ _ ∧ _))
  | (_, .read _ _) => inferInstanceAs (Decidable (_ ∧ _))
  | (_, .ioctl _ _) => inferInstanceAs (Decidable (0 ≤ _))

/-! ## One call -/

namespace DriverState.Stores

variable {sign : CharSign} {state : DriverState} {log : Log}

/-- A call leaves what it leaves on the abstract device, and leads to its log. -/
def Follows (sign : CharSign) (state : DriverState) (log : Log) (call : DeviceCall) : Prop :=
  call.leaves (deviceCall sign call state).1 = (Log.deviceCall call log).1 ∧
    (deviceCall sign call state).2.Stores sign (Log.deviceCall call log).2

theorem follows_write (stores : state.Stores sign log) (within : log.Within sign) {number : Nat}
    {call : WriteCall} (orderly : state.Orderly (number, .write call)) :
    Follows sign state log (.write call) := by
  obtain ⟨lines, bounded, supplies⟩ := orderly
  obtain ⟨result, after⟩ := stores.write_eq within lines bounded supplies
  exact ⟨congrArg (fun result => DeviceResult.write (FileResult.retval result)) result, after⟩

theorem follows_read (stores : state.Stores sign log) (within : log.Within sign) {number : Nat}
    {call : ReadCall} {fPos : Int} (orderly : state.Orderly (number, .read call fPos)) :
    Follows sign state log (.read call fPos) := by
  obtain ⟨positive, small⟩ := orderly
  obtain ⟨position, rfl⟩ := Int.eq_ofNat_of_zero_le positive
  obtain ⟨result, moved⟩ := stores.read_eq within.1 call (by omega : position < 2 ^ 63)
  refine ⟨?_, stores.aesdRead call position⟩
  have retval := congrArg FileResult.retval result
  have data := congrArg FileResult.data result
  dsimp only at retval data
  change DeviceResult.read _ _ _ = DeviceResult.read _ _ _
  rw [moved, retval, data]
  rfl

theorem follows_ioctl (stores : state.Stores sign log) (within : log.Within sign) {number : Nat}
    {call : IoctlCall} {fPos : Int} (orderly : state.Orderly (number, .ioctl call fPos)) :
    Follows sign state log (.ioctl call fPos) := by
  obtain ⟨position, rfl⟩ := Int.eq_ofNat_of_zero_le orderly
  obtain ⟨result, moved⟩ := stores.ioctl_eq within.1 call position
  exact ⟨congrArg₂ DeviceResult.ioctl (congrArg FileResult.retval result) moved, stores⟩

theorem follows (stores : state.Stores sign log) (within : log.Within sign)
    {entry : Nat × DeviceCall} (orderly : state.Orderly entry) :
    Follows sign state log entry.2 := by
  obtain ⟨number, call⟩ := entry
  cases call with
  | write call => exact stores.follows_write within orderly
  | read call fPos => exact stores.follows_read within orderly
  | ioctl call fPos => exact stores.follows_ioctl within orderly

end DriverState.Stores

/-- Calls one after another leave what they leave on the abstract device. -/
theorem history_eq (sign : CharSign) (order : List (Nat × DeviceCall))
    (orderly : Runs.Along (fun state entry => (deviceCall sign entry.2 state).2)
      DriverState.Orderly aesdInitModule order)
    (within : (replay Log.deviceCall .empty order).Within sign) :
    (history (deviceCall sign) aesdInitModule order).map
        (fun event => (event.1, event.1.2.leaves event.2)) =
      history Log.deviceCall .empty order := by
  refine (Runs.map_trace (fun state entry => deviceCall sign entry.2 state)
    (fun entry result => entry.2.leaves result) aesdInitModule order).trans ?_
  apply Runs.trace_eq_trace (fun state log => DriverState.Stores sign state log)
    fun log => log.Within sign
  case earlier => exact fun log entry within => within.of_deviceCall entry.2
  case stepwise =>
    intro state log entry stores orderly within _
    exact stores.follows within orderly
  case initially => exact DriverState.stores_init sign
  case along => exact orderly
  case limited => exact within

/-! ## Any order of statements -/

/-- Calls whose statements come in any order are calls of the abstract device, one after another.
Each that has returned has left what it leaves on the abstract device at its place in the order,
each has one place, and what comes later does not change the places. -/
theorem calls_linearize (sign : CharSign) (steps : List (Step DeviceCall))
    (orderly : Runs.Along (fun state entry => (deviceCall sign entry.2 state).2)
      DriverState.Orderly aesdInitModule
      (system (deviceCode sign) aesdInitModule steps).order)
    (within : (replay Log.deviceCall .empty
      (system (deviceCode sign) aesdInitModule steps).order).Within sign) :
    let order := (system (deviceCode sign) aesdInitModule steps).order
    (∀ (number : Nat) (call : DeviceCall) (result : DeviceResult),
      (system (deviceCode sign) aesdInitModule steps).tasks[number]? =
        some (.returned call result) →
      ((number, call), call.leaves result) ∈ history Log.deviceCall .empty order) ∧
    (order.map Prod.fst).Nodup ∧
    ∀ visited, visited <+: steps →
      (system (deviceCode sign) aesdInitModule visited).order <+: order := by
  intro order
  have implements := implements_deviceCode sign
  obtain ⟨-, returned, -⟩ := history_run implements aesdInitModule steps
  refine ⟨?_, ?_, ?_⟩
  case refine_1 =>
    intro number call result selected
    rw [← history_eq sign order orderly within]
    exact List.mem_map.mpr ⟨_, returned number call result selected, rfl⟩
  case refine_2 => exact (consistent_system implements aesdInitModule steps).once
  case refine_3 => exact fun _ isPrefix => order_prefix_system _ aesdInitModule isPrefix

/-- Two writes and a read take turns; a third write is interrupted before it has the lock. -/
def twoWritersInTurn : List (Step DeviceCall) :=
  [.call (.write (.granted [97] 0)), .call (.write (.granted [98, newline] 1)), .advance 1,
    .advance 0, .call (.read (.granted 64) 0),
    .call (.write { WriteCall.granted [99] 2 with lock := false }), .advance 3] ++
    (List.range 80).map fun turn => .advance (turn % 3)

theorem calls_linearize_two_writers :
    let order := (system (deviceCode .signed) aesdInitModule twoWritersInTurn).order
    (∀ (number : Nat) (call : DeviceCall) (result : DeviceResult),
      (system (deviceCode .signed) aesdInitModule twoWritersInTurn).tasks[number]? =
        some (.returned call result) →
      ((number, call), call.leaves result) ∈ history Log.deviceCall .empty order) ∧
    (order.map Prod.fst).Nodup ∧
    ∀ visited, visited <+: twoWritersInTurn →
      (system (deviceCode .signed) aesdInitModule visited).order <+: order :=
  calls_linearize .signed twoWritersInTurn (by decide +kernel) (by decide +kernel)

end Aesd
