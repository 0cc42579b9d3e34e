import Aesd.Driver.Concurrency

/-!
# Loading and unloading

The module is loaded and unloaded any number of times, while other drivers come and go and files of
the device are used. What the module registers it takes back, also when it cannot be loaded. The
blocks of its device are another matter: the next load starts from an empty device in the same
memory, and whatever an unload has left behind is never found again.
-/

namespace Aesd

open KernelMemory MachineInt

/-! ## Lost blocks -/

namespace DriverState

/-- The block is live, and no slot and no pending command points to it. -/
structure Lost (state : DriverState) (id : BlockId) : Prop where
  isLive : id ∈ state.mem.live
  slots : ∀ index, (state.dev.circBuffer.slot index).buffptr ≠ some (.block id)
  pending : state.dev.cbSize ≠ 0 → state.dev.cbBuffer ≠ some (.block id)

variable {state : DriverState} {id : BlockId}

/-- The allocation of a write finds other blocks. -/
theorem Lost.reserve (lost : state.Lost id) (sign : CharSign) (grant : Option BlockId)
    (count : Nat) : id ∈ (state.reserve sign grant count).2.live ∧
      (state.reserve sign grant count).1 ≠ some (.block id) :=
  (state.reserved sign grant count).keeps id lost.isLive lost.pending

theorem Lost.starved (lost : state.Lost id) (sign : CharSign) (call : WriteCall)
    (buf : List UInt8) : (state.starved sign call buf).Lost id where
  isLive := (lost.reserve sign call.grant buf.length).1
  slots := lost.slots
  pending _ := by simp [DriverState.starved]

theorem Lost.staged (lost : state.Lost id) (sign : CharSign) (call : WriteCall)
    (buf : List UInt8) : (state.staged sign call buf).Lost id ∧
      (state.staged sign call buf).dev.cbBuffer ≠ some (.block id) := by
  obtain ⟨isLive, apart⟩ := lost.reserve sign call.grant buf.length
  refine ⟨⟨?_, lost.slots, fun _ => apart⟩, apart⟩
  simpa [DriverState.staged] using isLive

/-- A command goes to a slot with the pending block, or that block is freed: neither is the lost
one. -/
theorem Lost.accept (lost : state.Lost id) (apart : state.dev.cbBuffer ≠ some (.block id))
    (holding : state.Holding) (nonnull : state.dev.cbBuffer ≠ none) (sign : CharSign)
    (buf : List UInt8) : (state.accept sign buf).Lost id := by
  cases found : buf.findIdx? (· = newline) with
  | none =>
      rw [state.accept_of_none sign found]
      exact ⟨lost.isLive, lost.slots, fun _ => apart⟩
  | some i =>
      rw [state.accept_of_newline sign found]
      cases full : state.dev.circBuffer.full with
      | false =>
          rw [state.complete_of_open sign (i + 1) full]
          refine ⟨lost.isLive, ?_, fun pending => absurd rfl pending⟩
          intro index
          rcases holding.slots_addEntry
            ⟨state.dev.cbBuffer, state.recordedSize sign (i + 1)⟩ index with
            ⟨-, slot⟩ | ⟨-, slot⟩
          · simpa only [slot] using apart
          · simpa only [slot] using lost.slots index
      | true =>
          rw [state.complete_of_full sign (i + 1) holding.ring full nonnull]
          refine ⟨(Memory.mem_live_kfree ..).mpr ⟨lost.isLive, apart⟩, ?_,
            fun pending => absurd rfl pending⟩
          intro index
          rcases holding.slots_addEntry ⟨none, state.recordedSize sign (i + 1)⟩ index with
            ⟨-, slot⟩ | ⟨-, slot⟩
          · simp only [slot]
            simp
          · simpa only [slot] using lost.slots index

theorem Lost.aesdWrite (lost : state.Lost id) (wf : state.WellFormed) (sign : CharSign)
    (call : WriteCall) : (Aesd.aesdWrite sign state call).2.Lost id := by
  rcases aesdWrite_cases sign state call with ⟨-, -, same⟩ |
    ⟨buf, -, ⟨-, result⟩ | ⟨-, -, result⟩ | ⟨granted, -, result⟩⟩
  · rw [same]
    exact lost
  · rw [result]
    exact lost.starved sign call buf
  · rw [result]
    exact (lost.staged sign call buf).1
  · rw [result]
    obtain ⟨still, apart⟩ := lost.staged sign call buf
    exact still.accept apart (wf.staged sign call buf) (staged_nonnull granted) sign buf

theorem Lost.deviceCall (lost : state.Lost id) (wf : state.WellFormed) (sign : CharSign)
    (call : DeviceCall) : (Aesd.deviceCall sign call state).2.Lost id := by
  cases call with
  | write call => exact lost.aesdWrite wf sign call
  | read call fPos =>
      obtain ⟨recent, after⟩ := state.state_aesdRead call fPos
      change (aesdRead state call fPos).state.Lost id
      rw [after]
      exact ⟨lost.isLive, lost.slots, lost.pending⟩
  | ioctl => exact lost

/-- An empty device has lost whatever there is. -/
theorem lost_empty {mem : Memory} (isLive : id ∈ mem.live) :
    Lost ⟨aesdInitModule.dev, mem⟩ id where
  isLive := isLive
  slots index := by simp [aesdInitModule, AesdBufferEntry.zero]
  pending bytes := absurd rfl bytes

theorem wellFormed_empty (mem : Memory) : WellFormed ⟨aesdInitModule.dev, mem⟩ where
  ring := AesdCircularBuffer.wellFormed_init
  entryValid index := by simp [aesdInitModule, AesdBufferEntry.zero, ValidIn]
  entryApart index other id held := by simp [aesdInitModule, AesdBufferEntry.zero] at held
  pendingValid bytes := absurd rfl bytes
  pendingApart bytes := absurd rfl bytes

end DriverState

/-! ## The module and the kernel -/

/-- `MAJOR`. -/
def majorOf (dev : UInt32) : UInt32 := dev >>> 20

/-- `MKDEV`. -/
def mkdev (major minor : UInt32) : UInt32 := (major <<< 20) ||| minor

/-- `aesd_minor`. -/
def aesdMinor : UInt32 := 0

/-- Who has registered a device number. -/
inductive Registrant where
  | aesd
  | other
  deriving DecidableEq, Repr

/-- The registered device numbers, those with a `cdev` of this driver, whether the module is
loaded, its variables, and the memory. -/
structure Kernel where
  regions : UInt32 → Option Registrant
  cdevs : UInt32 → Bool
  loaded : Bool
  aesdMajor : UInt32
  device : DriverState

/-- The outcomes of `alloc_chrdev_region` and `cdev_add`. -/
inductive LoadOutcome where
  | allocFails (error : Nat)
  | addFails (major : UInt32) (error : Nat)
  | succeeds (major : UInt32)
  deriving DecidableEq, Repr

/-- A load, an unload, a call on a file of the device, or what another driver does. -/
inductive KernelStep where
  | load (outcome : LoadOutcome)
  | unload
  | call (call : DeviceCall)
  | otherRegisters (dev : UInt32)
  | otherUnregisters (dev : UInt32)
  deriving DecidableEq, Repr

namespace Kernel

/-- No driver is loaded. -/
def boot : Kernel := ⟨fun _ => none, fun _ => false, false, 0, Aesd.aesdInitModule⟩

/-- The device number of the module. -/
def devno (kernel : Kernel) : UInt32 := mkdev kernel.aesdMajor aesdMinor

/-- A device number goes to somebody, or to nobody. -/
def setRegion (kernel : Kernel) (dev : UInt32) (registrant : Option Registrant) : Kernel :=
  { kernel with regions := fun other => if other = dev then registrant else kernel.regions other }

/-- `cdev_add` and `cdev_del`. -/
def setCdev (kernel : Kernel) (dev : UInt32) (present : Bool) : Kernel :=
  { kernel with cdevs := fun other => if other = dev then present else kernel.cdevs other }

/-- The kernel hands out a major number of twelve bits that is not in use. -/
def Grants (kernel : Kernel) : LoadOutcome → Prop
  | .allocFails _ => True
  | .addFails major _ | .succeeds major =>
      major.toNat < 2 ^ 12 ∧ kernel.regions (mkdev major aesdMinor) = none

instance (kernel : Kernel) : (outcome : LoadOutcome) → Decidable (kernel.Grants outcome)
  | .allocFails _ => .isTrue trivial
  | .addFails _ _ => inferInstanceAs (Decidable (_ ∧ _))
  | .succeeds _ => inferInstanceAs (Decidable (_ ∧ _))

/-- `aesd_init_module` up to `aesd_setup_cdev`: the region, `aesd_major`, and an empty device. -/
def register (kernel : Kernel) (major : UInt32) : Kernel :=
  let dev := mkdev major aesdMinor
  { kernel.setRegion dev (some .aesd) with
    aesdMajor := majorOf dev
    device := ⟨Aesd.aesdInitModule.dev, kernel.device.mem⟩ }

/-- `aesd_init_module`: its return value, and what it leaves. -/
def aesdInitModule (kernel : Kernel) : LoadOutcome → Int × Kernel
  | .allocFails error => (-(error + 1), { kernel with aesdMajor := 0 })
  | .addFails major error =>
      (-(error + 1), (kernel.register major).setRegion (mkdev major aesdMinor) none)
  | .succeeds major =>
      let registered := kernel.register major
      (0, registered.setCdev registered.devno true)

/-- `insmod`: a module that returns an error is not loaded. -/
def load (kernel : Kernel) (outcome : LoadOutcome) : Kernel :=
  if kernel.loaded ∨ ¬kernel.Grants outcome then kernel
  else
    let (retval, after) := kernel.aesdInitModule outcome
    { after with loaded := retval == 0 }

/-- `aesd_cleanup_module`. -/
def aesdCleanupModule (kernel : Kernel) : Kernel :=
  let devno := kernel.devno
  { (kernel.setCdev devno false).setRegion devno none with
    device := Aesd.aesdCleanupModule kernel.device }

/-- `rmmod`. -/
def unload (kernel : Kernel) : Kernel :=
  if kernel.loaded then { kernel.aesdCleanupModule with loaded := false } else kernel

end Kernel

/-- One step. What cannot be granted does not happen, and other drivers take back only what is
theirs. -/
def kernelStep (sign : CharSign) (kernel : Kernel) : KernelStep → Kernel
  | .load outcome => kernel.load outcome
  | .unload => kernel.unload
  | .call call =>
      if kernel.loaded then { kernel with device := (deviceCall sign call kernel.device).2 }
      else kernel
  | .otherRegisters dev =>
      if kernel.regions dev = none then kernel.setRegion dev (some .other) else kernel
  | .otherUnregisters dev =>
      if kernel.regions dev = some .other then kernel.setRegion dev none else kernel

/-- The kernel after some steps. -/
def kernelRun (sign : CharSign) (steps : List KernelStep) : Kernel :=
  Runs.run (kernelStep sign) .boot steps

/-! ## What holds in every run -/

/-- The number that the module registers is the one it unregisters. -/
theorem mkdev_majorOf {major : UInt32} (small : major.toNat < 2 ^ 12) :
    mkdev (majorOf (mkdev major aesdMinor)) aesdMinor = mkdev major aesdMinor := by
  have shifted : (major <<< 20) >>> 20 = major := by
    apply UInt32.toNat_inj.mp
    rw [UInt32.toNat_shiftRight, UInt32.toNat_shiftLeft]
    simp only [UInt32.reduceToNat, Nat.reduceMod, Nat.shiftLeft_eq, Nat.shiftRight_eq_div_pow]
    omega
  simp only [mkdev, majorOf, aesdMinor, UInt32.or_zero, shifted]

namespace Kernel

variable {kernel : Kernel} {dev other : UInt32} {sign : CharSign}

@[simp] theorem regions_setRegion {registrant : Option Registrant} :
    (kernel.setRegion dev registrant).regions other =
      if other = dev then registrant else kernel.regions other := rfl

@[simp] theorem cdevs_setRegion {registrant : Option Registrant} :
    (kernel.setRegion dev registrant).cdevs = kernel.cdevs := rfl

@[simp] theorem regions_setCdev {present : Bool} :
    (kernel.setCdev dev present).regions = kernel.regions := rfl

@[simp] theorem regions_register {major : UInt32} : (kernel.register major).regions other =
    if other = mkdev major aesdMinor then some .aesd else kernel.regions other := rfl

@[simp] theorem cdevs_register {major : UInt32} :
    (kernel.register major).cdevs = kernel.cdevs := rfl

@[simp] theorem cdevs_setCdev {present : Bool} : (kernel.setCdev dev present).cdevs other =
    if other = dev then present else kernel.cdevs other := rfl

/-- The number and the `cdev` of the module are registered exactly while it is loaded. Its device
is well formed then, and the record of pointers that were given back is kept. -/
structure Kept (kernel : Kernel) : Prop where
  regions : ∀ dev, kernel.regions dev = some .aesd ↔ kernel.loaded = true ∧ dev = kernel.devno
  cdevs : ∀ dev, kernel.cdevs dev = true ↔ kernel.loaded = true ∧ dev = kernel.devno
  wellFormed : kernel.loaded = true → kernel.device.WellFormed
  valid : kernel.device.GivesBackValid

theorem kept_boot : boot.Kept where
  regions dev := by simp [boot]
  cdevs dev := by simp [boot]
  wellFormed loaded := by cases loaded
  valid := by simp [boot, DriverState.GivesBackValid, Aesd.aesdInitModule, Memory.empty]

/-- What a load does. -/
inductive Loads (kernel : Kernel) : Kernel → Prop where
  | refused : Loads kernel kernel
  | allocFails (unloaded : kernel.loaded = false) :
      Loads kernel { kernel with aesdMajor := 0, loaded := false }
  | addFails (major : UInt32) (unloaded : kernel.loaded = false)
      (free : kernel.regions (mkdev major aesdMinor) = none) :
      Loads kernel
        { (kernel.register major).setRegion (mkdev major aesdMinor) none with loaded := false }
  | succeeds (major : UInt32) (unloaded : kernel.loaded = false)
      (free : kernel.regions (mkdev major aesdMinor) = none)
      (same : (kernel.register major).devno = mkdev major aesdMinor) :
      Loads kernel
        { (kernel.register major).setCdev (mkdev major aesdMinor) true with loaded := true }

theorem loads (kernel : Kernel) (outcome : LoadOutcome) : Loads kernel (kernel.load outcome) := by
  unfold load
  split
  next => exact .refused
  next granted =>
    obtain ⟨isUnloaded, grants⟩ := not_or.mp granted
    have unloaded := Bool.eq_false_of_not_eq_true isUnloaded
    have grants := not_not.mp grants
    cases outcome with
    | allocFails error =>
        have failed : (-((error : Int) + 1) == 0) = false := by
          rw [beq_eq_false_iff_ne]
          omega
        simp only [aesdInitModule, failed]
        exact .allocFails unloaded
    | addFails major error =>
        have failed : (-((error : Int) + 1) == 0) = false := by
          rw [beq_eq_false_iff_ne]
          omega
        simp only [aesdInitModule, failed]
        exact .addFails major unloaded grants.2
    | succeeds major =>
        have same : (kernel.register major).devno = mkdev major aesdMinor :=
          mkdev_majorOf grants.1
        simp only [aesdInitModule, same]
        exact .succeeds major unloaded grants.2 same

theorem Kept.load (kept : kernel.Kept) (outcome : LoadOutcome) : (kernel.load outcome).Kept := by
  have moves := kernel.loads outcome
  generalize kernel.load outcome = after at moves ⊢
  have unregistered : kernel.loaded = false → ∀ dev, kernel.regions dev ≠ some .aesd := by
    intro unloaded dev registered
    cases unloaded.symm.trans ((kept.regions dev).mp registered).1
  have absent : kernel.loaded = false → ∀ dev, kernel.cdevs dev = false := by
    intro unloaded dev
    rw [Bool.eq_false_iff]
    intro present
    cases unloaded.symm.trans ((kept.cdevs dev).mp present).1
  cases moves with
  | refused => exact kept
  | allocFails unloaded =>
      constructor
      case regions => simpa using unregistered unloaded
      case cdevs => simpa using absent unloaded
      case wellFormed => exact fun loaded => by cases loaded
      case valid => exact kept.valid
  | addFails major unloaded free =>
      constructor
      case regions =>
        intro dev
        have before := unregistered unloaded dev
        simp [before]
      case cdevs =>
        intro dev
        simpa using absent unloaded dev
      case wellFormed => exact fun loaded => by cases loaded
      case valid => exact kept.valid
  | succeeds major unloaded free same =>
      constructor
      case regions =>
        intro dev
        have before := unregistered unloaded dev
        change _ ↔ true = true ∧ dev = (kernel.register major).devno
        rw [same]
        simp [before]
      case cdevs =>
        intro dev
        have before := absent unloaded dev
        change _ ↔ true = true ∧ dev = (kernel.register major).devno
        rw [same]
        simp [before]
      case wellFormed => exact fun _ => DriverState.wellFormed_empty _
      case valid => exact kept.valid

theorem Kept.unload (kept : kernel.Kept) : kernel.unload.Kept := by
  unfold Kernel.unload
  split
  next loaded =>
    have regions := kept.regions
    have cdevs := kept.cdevs
    rw [loaded] at regions cdevs
    constructor
    case regions =>
      intro dev
      simp [aesdCleanupModule, regions]
    case cdevs =>
      intro dev
      simp [aesdCleanupModule, cdevs]
    case wellFormed => exact fun loaded => by cases loaded
    case valid =>
      exact ((kept.wellFormed loaded).freeing kept.valid maxWriteOperations).2
  next => exact kept

/-- Other drivers take a number that is free, or give back one of theirs. -/
theorem Kept.setRegion (kept : kernel.Kept) {registrant : Option Registrant}
    (foreign : registrant ≠ some .aesd) (apart : kernel.regions dev ≠ some .aesd) :
    (kernel.setRegion dev registrant).Kept where
  regions other := by
    change (if other = dev then registrant else kernel.regions other) = some .aesd ↔
      kernel.loaded = true ∧ other = kernel.devno
    rw [← kept.regions other]
    split
    next same => simp [same, foreign, apart]
    next => exact Iff.rfl
  cdevs := kept.cdevs
  wellFormed := kept.wellFormed
  valid := kept.valid

theorem Kept.step (kept : kernel.Kept) (sign : CharSign) (step : KernelStep) :
    (kernelStep sign kernel step).Kept := by
  cases step with
  | load outcome => exact kept.load outcome
  | unload => exact kept.unload
  | call call =>
      simp only [kernelStep]
      split
      next loaded =>
        obtain ⟨wf, valid⟩ := sound_deviceCall sign call kernel.device
          ⟨kept.wellFormed loaded, kept.valid⟩
        exact ⟨kept.regions, kept.cdevs, fun _ => wf, valid⟩
      next => exact kept
  | otherRegisters dev =>
      simp only [kernelStep]
      split
      next free => exact kept.setRegion (by simp) (by simp [free])
      next => exact kept
  | otherUnregisters dev =>
      simp only [kernelStep]
      split
      next held => exact kept.setRegion (by simp) (by simp [held])
      next => exact kept

end Kernel

theorem kept_run (sign : CharSign) (steps : List KernelStep) : (kernelRun sign steps).Kept :=
  Runs.invariant_always Kernel.Kept (fun _ step kept => kept.step sign step) steps Kernel.kept_boot

/-- The step is one of another driver. -/
def KernelStep.IsOther : KernelStep → Prop
  | .otherRegisters _ | .otherUnregisters _ => True
  | _ => False

/-- In any order of loads, failed loads, unloads, calls and what other drivers do, the module has
its number and its `cdev` registered exactly while it is loaded and touches no number of another
driver, and every pointer it ever gives back to the allocator is valid at that moment. -/
theorem module_lifetimes (sign : CharSign) (steps : List KernelStep) :
    let reached := kernelRun sign steps
    (∀ dev, reached.regions dev = some .aesd ↔ reached.loaded = true ∧ dev = reached.devno) ∧
    (∀ dev, reached.cdevs dev = true ↔ reached.loaded = true ∧ dev = reached.devno) ∧
    (∀ step : KernelStep, ¬step.IsOther → ∀ dev,
      (kernelStep sign reached step).regions dev = some .other ↔
        reached.regions dev = some .other) ∧
    ∀ recorded ∈ reached.device.mem.calls, recorded.PointerValid := by
  intro reached
  have kept := kept_run sign steps
  refine ⟨kept.regions, kept.cdevs, ?_, kept.valid⟩
  intro step own dev
  cases step with
  | otherRegisters | otherUnregisters => exact absurd trivial own
  | call call =>
      simp only [kernelStep]
      split
      next => exact Iff.rfl
      next => exact Iff.rfl
  | load outcome =>
      change (reached.load outcome).regions dev = _ ↔ _
      have moves := reached.loads outcome
      generalize reached.load outcome = after at moves ⊢
      cases moves with
      | refused | allocFails => exact Iff.rfl
      | addFails major _ free | succeeds major _ free =>
          by_cases same : dev = mkdev major aesdMinor
          · simp [same, free]
          · simp [same]
  | unload =>
      change reached.unload.regions dev = _ ↔ _
      unfold Kernel.unload
      split
      next loaded =>
        have registered := (kept.regions reached.devno).mpr ⟨loaded, rfl⟩
        by_cases same : dev = reached.devno
        · subst same
          simp [Kernel.aesdCleanupModule, reached, registered]
        · simp [Kernel.aesdCleanupModule, same]
      next => exact Iff.rfl

/-! ## What an unload leaves behind -/

/-- The block is live, and if the module is loaded, its device does not point to it. -/
def Kernel.Lost (kernel : Kernel) (id : BlockId) : Prop :=
  id ∈ kernel.device.mem.live ∧ (kernel.loaded = true → kernel.device.Lost id)

theorem Kernel.Lost.step {kernel : Kernel} {id : BlockId} (lost : kernel.Lost id)
    (kept : kernel.Kept) (sign : CharSign) (step : KernelStep) :
    (kernelStep sign kernel step).Lost id := by
  obtain ⟨isLive, unowned⟩ := lost
  cases step with
  | load outcome =>
      change (kernel.load outcome).Lost id
      have moves := kernel.loads outcome
      generalize kernel.load outcome = after at moves ⊢
      cases moves with
      | refused => exact ⟨isLive, unowned⟩
      | allocFails | addFails => exact ⟨isLive, fun loaded => by cases loaded⟩
      | succeeds => exact ⟨isLive, fun _ => DriverState.lost_empty isLive⟩
  | unload =>
      simp only [kernelStep, Kernel.unload]
      split
      next loaded =>
        refine ⟨?_, fun loaded => by cases loaded⟩
        have freed := (kept.wellFormed loaded).freeing kept.valid maxWriteOperations
        exact (freed.1 id).mpr ⟨isLive, fun index _ => (unowned loaded).slots index⟩
      next => exact ⟨isLive, unowned⟩
  | call call =>
      simp only [kernelStep]
      split
      next loaded =>
        have still := (unowned loaded).deviceCall (kept.wellFormed loaded) sign call
        exact ⟨still.isLive, fun _ => still⟩
      next => exact ⟨isLive, unowned⟩
  | otherRegisters dev | otherUnregisters dev =>
      simp only [kernelStep]
      split
      next => exact ⟨isLive, unowned⟩
      next => exact ⟨isLive, unowned⟩

/-- A block that is lost is lost for good: no later call, unload or load gives it back to the
allocator or is granted it again. While the module is not loaded, all its blocks are lost. -/
theorem lost_for_good (sign : CharSign) (steps more : List KernelStep) (id : BlockId)
    (lost : (kernelRun sign steps).Lost id) : (kernelRun sign (steps ++ more)).Lost id := by
  have both : (kernelRun sign (steps ++ more)).Kept ∧ (kernelRun sign (steps ++ more)).Lost id := by
    rw [kernelRun, Runs.run_append]
    refine Runs.invariant_always (fun kernel : Kernel => kernel.Kept ∧ kernel.Lost id) ?_ more
      ⟨kept_run sign steps, lost⟩
    intro kernel step holds
    exact ⟨holds.1.step sign step, holds.2.step holds.1 sign step⟩
  exact both.2

/-- The first of eleven lines is lost when the module is unloaded; it is loaded again and used. -/
theorem lost_for_good_eleven_lines :
    let line (address : Nat) : KernelStep := .call (.write (.granted [newline] address))
    let steps : List KernelStep := .load (.succeeds 240) :: (List.range 11).map line ++ [.unload]
    (kernelRun .signed (steps ++ [.load (.succeeds 240), line 20, .unload])).Lost 0 := by
  intro line steps
  have unloaded : (kernelRun .signed steps).loaded = false := by decide +kernel
  refine lost_for_good .signed steps _ 0 ⟨?_, ?_⟩
  · decide +kernel
  · rw [unloaded]
    exact fun loaded => by cases loaded

end Aesd
