import Aesd.CircularBuffer.History
import Aesd.Driver.Core

/-!
# Seeking to a command

`aesd_unlocked_ioctl` numbers the commands by slot and sums sizes from slot 0 on
in an `int`. The lookup of a reader starts at the oldest entry and sums in
`size_t`. The two number the same way only while the oldest entry is in slot 0,
and a sum over the slots is the position of a reader only if the sums over slots
and over retained entries agree. `ResolvesSeek` says when a request survives the
difference.
-/

namespace Aesd

open KernelMemory MachineInt

namespace AesdCircularBuffer

universe u

variable {Pointer : Type u}

/-- A well-formed buffer whose retained entries all have bytes. -/
structure Occupied (buffer : AesdCircularBuffer Pointer) : Prop where
  ring : buffer.WellFormed
  positive : ∀ entry ∈ buffer.retained, 0 < entry.size.toNat

theorem occupied_ofEntries {entries : List (AesdBufferEntry Pointer)}
    (positive : ∀ entry ∈ entries, 0 < entry.size) : (ofEntries entries).Occupied := by
  have along : Runs.Along
      (fun buffer entry => (buffer.aesdCircularBufferAddEntry entry).2)
      (fun _ entry => 0 < entry.size) aesdCircularBufferInit entries := .always fun _ => positive
  refine Runs.invariant Occupied (fun buffer entry occupied nonempty => ?_)
    ⟨wellFormed_init, by simp⟩ along
  refine ⟨occupied.ring.addEntry entry, fun retained member => ?_⟩
  rw [occupied.ring.retained_addEntry] at member
  rcases List.mem_append.mp (List.mem_of_mem_drop member) with old | new
  · exact occupied.positive retained old
  · obtain rfl := List.mem_singleton.mp new
    exact UInt64.lt_iff_toNat_lt.mp nonempty

/-- The sum of the sizes of the slots before an index. -/
def slotPrefix (buffer : AesdCircularBuffer Pointer) (count : Nat) : Nat :=
  ((List.range count).map fun index => (buffer.slot index).size.toNat).sum

/-- The sum of the sizes of the retained entries before an index, oldest first. -/
def entryPrefix (buffer : AesdCircularBuffer Pointer) (count : Nat) : Nat :=
  (buffer.sizes.take count).sum

/-- Before a slot with bytes there is no slot without. -/
theorem Occupied.slot_pos {buffer : AesdCircularBuffer Pointer} (occupied : buffer.Occupied)
    {index : Nat} (nonempty : 0 < (buffer.slot index).size.toNat) {earlier : Nat}
    (before : earlier < index) : 0 < (buffer.slot earlier).size.toNat := by
  have inside := buffer.lt_of_slot_size_pos nonempty
  cases full : buffer.full with
  | true =>
      have every := (mem_walk_iff occupied.ring (buffer.slot earlier)).mpr
        ⟨earlier, by omega, rfl⟩
      rw [occupied.ring.walk_eq, count, if_pos full, Nat.sub_self, List.replicate_zero,
        List.append_nil] at every
      exact occupied.positive _ every
  | false =>
      have start := occupied.ring.open_offs full
      have used : index < buffer.inOffs := by
        by_contra unused
        rw [occupied.ring.unused full index (by omega)] at nonempty
        simp [AesdBufferEntry.zero] at nonempty
      have selected : buffer.retained[earlier]? = some (buffer.slot earlier) := by
        rw [retained, Window.getElem?_window _ (by rw [count, full]; simp; omega), start,
          Nat.zero_add, Nat.mod_eq_of_lt (by omega)]
      exact occupied.positive _ (List.mem_of_getElem? selected)

/-- A sum of machine sizes is the sum of their values modulo `2 ^ 64`. -/
theorem toNat_sum (sizes : List UInt64) :
    sizes.sum.toNat = (sizes.map UInt64.toNat).sum % 2 ^ 64 := by
  induction sizes with
  | nil => rfl
  | cons size sizes ih => rw [List.sum_cons, UInt64.toNat_add, ih, List.map_cons, List.sum_cons,
      Nat.add_mod_mod]

/-- The running total of the lookup after some slots. -/
theorem WellFormed.toNat_sum_walk {buffer : AesdCircularBuffer Pointer}
    (wf : buffer.WellFormed) (count : Nat) :
    ((buffer.walk.map fun entry : AesdBufferEntry Pointer => entry.size).take count).sum.toNat =
      buffer.entryPrefix count % 2 ^ 64 := by
  have values : ((buffer.walk.map fun entry => entry.size).take count).map UInt64.toNat =
      buffer.sizes.take count ++
        (List.replicate (maxWriteOperations - buffer.count) 0).take
          (count - buffer.sizes.length) := by
    rw [← List.take_append, wf.walk_eq, List.map_take, List.map_map, List.map_append,
      List.map_replicate]
    rfl
  rw [toNat_sum, values, List.sum_append, entryPrefix, List.take_replicate]
  simp

end AesdCircularBuffer

/-- The position of the requested byte in the concatenation of the retained
commands. -/
def requestedPosition (dev : AesdDev) (request : AesdSeekto) : Nat :=
  dev.circBuffer.entryPrefix request.writeCmd.toNat + request.writeCmdOffset.toNat

/-- The size of a retained entry, 0 if there is none. -/
def retainedSize (dev : AesdDev) (index : Nat) : Nat := dev.circBuffer.sizes[index]?.getD 0

/-- What the request ought to do, as its reader sees it: it succeeds exactly if the
numbered command is retained and has the requested byte, and then the lookup at
the new position finds that entry and that byte. -/
def AgreesWithRead (dev : AesdDev) (request : AesdSeekto) (fPos : Int) : Prop :=
  let result := aesdUnlockedIoctl dev ⟨aesdcharIocseekto, some request, true⟩ fPos
  (result.1 = 0 ↔ ∃ entry, dev.circBuffer.retained[request.writeCmd.toNat]? = some entry ∧
    request.writeCmdOffset.toNat < entry.size.toNat) ∧
  (result.1 = 0 →
    dev.circBuffer.aesdCircularBufferFindEntryOffsetForFpos (toSizeT result.2) =
      (some ((dev.circBuffer.outOffs + request.writeCmd.toNat) % maxWriteOperations),
        request.writeCmdOffset.toUInt64))

/-- When the two numberings agree on a request. The numbered slot and the numbered
command both have the requested byte, or neither. If they have, the sums over
slots and over retained entries agree as far as an `int` can tell, the position
fits in an `int`, and the sums modulo `2 ^ 64` pass it at the numbered entry. -/
structure ResolvesSeek (dev : AesdDev) (request : AesdSeekto) : Prop where
  sameRange :
    request.writeCmdOffset.toNat < (dev.circBuffer.slot request.writeCmd.toNat).size.toNat ↔
      request.writeCmdOffset.toNat < retainedSize dev request.writeCmd.toNat
  sameSum :
    request.writeCmdOffset.toNat < (dev.circBuffer.slot request.writeCmd.toNat).size.toNat →
      dev.circBuffer.slotPrefix request.writeCmd.toNat % 2 ^ 32 =
        dev.circBuffer.entryPrefix request.writeCmd.toNat % 2 ^ 32
  fitsInt :
    request.writeCmdOffset.toNat < (dev.circBuffer.slot request.writeCmd.toNat).size.toNat →
      requestedPosition dev request % 2 ^ 64 < 2 ^ 31 ∨
        2 ^ 64 - 2 ^ 31 ≤ requestedPosition dev request % 2 ^ 64
  passed :
    request.writeCmdOffset.toNat < (dev.circBuffer.slot request.writeCmd.toNat).size.toNat →
      (∀ earlier < request.writeCmd.toNat,
        dev.circBuffer.entryPrefix (earlier + 1) % 2 ^ 64 ≤
          requestedPosition dev request % 2 ^ 64) ∧
      requestedPosition dev request % 2 ^ 64 <
        dev.circBuffer.entryPrefix (request.writeCmd.toNat + 1) % 2 ^ 64

/-! ## What the ioctl does -/

/-- The loop over slots with bytes sums their sizes, modulo `2 ^ 32`. -/
theorem seekLoop_eq (buffer : AesdCircularBuffer Address) (remaining first : Nat) (fpos : Int)
    (nonempty : ∀ index, first ≤ index → index < first + remaining →
      0 < (buffer.slot index).size.toNat) :
    ∃ sum, seekLoop buffer remaining first fpos = some sum ∧
      sum % 2 ^ 32 = (fpos + ((List.range' first remaining).map
        fun index => (buffer.slot index).size.toNat).sum) % 2 ^ 32 := by
  induction remaining generalizing first fpos with
  | zero => exact ⟨fpos, rfl, by simp⟩
  | succ remaining ih =>
      have here := nonempty first le_rfl (by omega)
      have used : (buffer.slot first).size ≠ 0 := fun zero => by simp [zero] at here
      obtain ⟨sum, result, residue⟩ := ih (first + 1)
        (toInt32 (fpos + (buffer.slot first).size.toNat))
        fun index above below => nonempty index (by omega) (by omega)
      refine ⟨sum, by rw [seekLoop, if_neg used, result], ?_⟩
      have wrapped := toInt32_emod (fpos + (buffer.slot first).size.toNat)
      rw [residue, List.range'_succ, List.map_cons, List.sum_cons]
      push_cast
      omega

/-- A request fails and moves nothing, or it has the lock and succeeds. -/
theorem aesdUnlockedIoctl_cases (dev : AesdDev) (call : IoctlCall) (fPos : Int) :
    (∃ retval < 0, aesdUnlockedIoctl dev call fPos = (retval, fPos)) ∨
      call.lock = true ∧ ∃ position, aesdUnlockedIoctl dev call fPos = (0, position) := by
  unfold aesdUnlockedIoctl
  split
  next => exact .inl ⟨_, by decide, rfl⟩
  next =>
    split
    next => exact .inl ⟨_, by decide, rfl⟩
    next =>
      split
      next => exact .inl ⟨_, by decide, rfl⟩
      next =>
        split
        next => exact .inl ⟨_, by decide, rfl⟩
        next locked =>
          split
          next => exact .inl ⟨_, by decide, rfl⟩
          next =>
            split
            next => exact .inl ⟨_, by decide, rfl⟩
            next => exact .inr ⟨by simpa using locked, _, rfl⟩

/-- Two values with the same residue are the same `int`. -/
theorem toInt32_congr {left right : Int} (same : left % 2 ^ 32 = right % 2 ^ 32) :
    toInt32 left = toInt32 right := by
  have first := toInt32_emod left
  have second := toInt32_emod right
  have bounds := toInt32_bounds left
  have otherBounds := toInt32_bounds right
  omega

/-- A slot without bytes ends the loop. -/
theorem seekLoop_eq_none (buffer : AesdCircularBuffer Address) {remaining first index : Nat}
    (fpos : Int) (above : first ≤ index) (below : index < first + remaining)
    (empty : (buffer.slot index).size = 0) : seekLoop buffer remaining first fpos = none := by
  induction remaining generalizing first fpos with
  | zero => omega
  | succ remaining ih =>
      rw [seekLoop]
      split
      next => rfl
      next used =>
        have later : first ≠ index := fun same => used (same ▸ empty)
        exact ih _ (by omega) (by omega)

/-- What the driver checks of a request: there is a slot of its number, this slot has
the requested byte, and no slot before it is without bytes. -/
def AcceptsSeek (dev : AesdDev) (request : AesdSeekto) : Prop :=
  request.writeCmd.toNat < maxWriteOperations ∧
    request.writeCmdOffset.toNat <
      (dev.circBuffer.slot request.writeCmd.toNat).size.toNat ∧
    ∀ earlier < request.writeCmd.toNat, (dev.circBuffer.slot earlier).size ≠ 0

instance (dev : AesdDev) (request : AesdSeekto) : Decidable (AcceptsSeek dev request) :=
  inferInstanceAs (Decidable (_ ∧ _ ∧ _))

/-- The command of a seek passes the checks of its number. -/
theorem aesdcharIocseekto_valid :
    ¬(iocType aesdcharIocseekto ≠ aesdIocMagic ∨
      iocNr aesdcharIocseekto > aesdcharIocMaxnr ∨ aesdcharIocseekto ≠ aesdcharIocseekto) := by
  decide

/-- A request that cannot be copied is not looked at. -/
theorem aesdUnlockedIoctl_uncopied (dev : AesdDev) (lock : Bool) (fPos : Int) :
    aesdUnlockedIoctl dev ⟨aesdcharIocseekto, none, lock⟩ fPos = (-errnoEfault, fPos) := by
  rw [aesdUnlockedIoctl, if_neg aesdcharIocseekto_valid]

/-- A request that gets the lock succeeds exactly if the driver accepts it, and then the
new position is the sum over the slots before it. -/
theorem aesdUnlockedIoctl_locked (dev : AesdDev) (request : AesdSeekto) (fPos : Int) :
    aesdUnlockedIoctl dev ⟨aesdcharIocseekto, some request, true⟩ fPos =
      if AcceptsSeek dev request then
        (0, toInt32 (dev.circBuffer.slotPrefix request.writeCmd.toNat +
          request.writeCmdOffset.toNat))
      else (-errnoEinval, fPos) := by
  unfold aesdUnlockedIoctl
  rw [if_neg aesdcharIocseekto_valid]
  dsimp only
  by_cases inside : request.writeCmd.toNat < maxWriteOperations
  · rw [if_neg (by omega), if_neg (by simp)]
    by_cases inRange : request.writeCmdOffset.toNat <
        (dev.circBuffer.slot request.writeCmd.toNat).size.toNat
    · rw [if_neg (by omega)]
      by_cases used : ∀ earlier < request.writeCmd.toNat,
          (dev.circBuffer.slot earlier).size ≠ 0
      · have positive : ∀ index, 0 ≤ index → index < 0 + request.writeCmd.toNat →
            0 < (dev.circBuffer.slot index).size.toNat := fun index _ below =>
          Nat.pos_of_ne_zero fun zero =>
            used index (by omega) (UInt64.toNat_inj.mp (zero.trans UInt64.toNat_zero.symm))
        obtain ⟨sum, result, residue⟩ :=
          seekLoop_eq dev.circBuffer request.writeCmd.toNat 0 0 positive
        rw [if_pos ⟨inside, inRange, used⟩, result]
        rw [Int.zero_add, ← List.range_eq_range'] at residue
        have same : toInt32 (sum + request.writeCmdOffset.toNat) =
            toInt32 (dev.circBuffer.slotPrefix request.writeCmd.toNat +
              request.writeCmdOffset.toNat) := by
          apply toInt32_congr
          unfold AesdCircularBuffer.slotPrefix
          omega
        simp only [same]
      · have refused : ¬AcceptsSeek dev request := fun accepts => used accepts.2.2
        obtain ⟨earlier, before, empty⟩ : ∃ earlier, earlier < request.writeCmd.toNat ∧
            (dev.circBuffer.slot earlier).size = 0 := by simpa using used
        rw [seekLoop_eq_none dev.circBuffer 0 (Nat.zero_le _) (by omega) empty, if_neg refused]
    · have refused : ¬AcceptsSeek dev request := fun accepts => inRange accepts.2.1
      rw [if_pos (by omega), if_neg refused]
  · have refused : ¬AcceptsSeek dev request := fun accepts => inside accepts.1
    rw [if_pos (by omega), if_neg refused]

/-- With bytes in every used slot, the requested byte decides. -/
theorem acceptsSeek_iff {dev : AesdDev} (occupied : dev.circBuffer.Occupied)
    (request : AesdSeekto) :
    AcceptsSeek dev request ↔ request.writeCmdOffset.toNat <
      (dev.circBuffer.slot request.writeCmd.toNat).size.toNat := by
  refine ⟨fun accepts => accepts.2.1, fun inRange => ?_⟩
  have nonempty := Nat.zero_lt_of_lt inRange
  refine ⟨dev.circBuffer.lt_of_slot_size_pos nonempty, inRange, fun earlier before empty => ?_⟩
  have positive := occupied.slot_pos nonempty before
  rw [empty] at positive
  exact absurd positive (by decide)

/-- A valid request succeeds exactly if the numbered slot has the requested byte, and
then the new position is the sum over the slots before it. -/
theorem aesdUnlockedIoctl_eq {dev : AesdDev} (occupied : dev.circBuffer.Occupied)
    (request : AesdSeekto) (fPos : Int) :
    aesdUnlockedIoctl dev ⟨aesdcharIocseekto, some request, true⟩ fPos =
      if request.writeCmdOffset.toNat <
          (dev.circBuffer.slot request.writeCmd.toNat).size.toNat then
        (0, toInt32 (dev.circBuffer.slotPrefix request.writeCmd.toNat +
          request.writeCmdOffset.toNat))
      else (-errnoEinval, fPos) := by
  rw [aesdUnlockedIoctl_locked]
  exact if_congr (acceptsSeek_iff occupied request) rfl rfl

/-! ## What the lookup finds -/

/-- The lookup finds a byte of a numbered entry exactly at its position modulo
`2 ^ 64`, provided the sums modulo `2 ^ 64` pass the position there. -/
theorem find_eq_iff {buffer : AesdCircularBuffer Address} (wf : buffer.WellFormed)
    {index : Nat} (inside : index < maxWriteOperations) (position offset : UInt64) :
    buffer.aesdCircularBufferFindEntryOffsetForFpos position =
        (some ((buffer.outOffs + index) % maxWriteOperations), offset) ↔
      (∀ earlier < index, buffer.entryPrefix (earlier + 1) % 2 ^ 64 ≤ position.toNat) ∧
        position.toNat < buffer.entryPrefix (index + 1) % 2 ^ 64 ∧
        position.toNat = (buffer.entryPrefix index + offset.toNat) % 2 ^ 64 := by
  have length : (buffer.walk.map (·.size)).length = maxWriteOperations := by
    simp [AesdCircularBuffer.walk]
  have found : buffer.aesdCircularBufferFindEntryOffsetForFpos position =
        (some ((buffer.outOffs + index) % maxWriteOperations), offset) ↔
      Locate.scan position (buffer.walk.map (·.size)) 0 position = some (index, offset) := by
    rw [AesdCircularBuffer.find_eq_scan wf]
    cases scanned : Locate.scan position (buffer.walk.map (·.size)) 0 position with
    | none => simp
    | some result =>
        obtain ⟨stop, rest⟩ := result
        have bound := ((Locate.scan_eq_some_iff ..).mp scanned).1
        rw [length] at bound
        simp only [Prod.mk.injEq, Option.some.injEq]
        refine and_congr_left fun _ => ⟨fun same => ?_, fun same => by rw [same]⟩
        by_contra different
        rcases Nat.lt_or_gt_of_ne different with less | more
        · exact Window.offset_ne less inside same
        · exact Window.offset_ne more bound same.symm
  rw [found, Locate.scan_eq_some_iff, length]
  simp only [UInt64.zero_add, UInt64.lt_iff_toNat_lt, wf.toNat_sum_walk, inside, true_and,
    Nat.not_lt, ← UInt64.toNat_inj, UInt64.toNat_sub]
  have bound := position.toNat_lt
  have offsetBound := offset.toNat_lt
  refine and_congr_right fun _ => and_congr_right fun _ => ?_
  omega

/-! ## Agreement -/

/-- The `int` a seek stores, widened to a position, is a position of a reader
exactly if the two agree modulo `2 ^ 32` and the position is in the range of a
widened `int`. -/
theorem toSizeT_toInt32_eq_iff (value position : Nat) (bound : position < 2 ^ 64) :
    (toSizeT (toInt32 value)).toNat = position ↔
      value % 2 ^ 32 = position % 2 ^ 32 ∧
        (position < 2 ^ 31 ∨ 2 ^ 64 - 2 ^ 31 ≤ position) := by
  have wide := toNat_toSizeT (toInt32 value)
  have residue := toInt32_emod value
  have bounds := toInt32_bounds value
  omega

/-- The numbered command has the requested byte. -/
theorem exists_retained_iff (dev : AesdDev) (index offset : Nat) :
    (∃ entry, dev.circBuffer.retained[index]? = some entry ∧ offset < entry.size.toNat) ↔
      offset < retainedSize dev index := by
  rw [retainedSize, AesdCircularBuffer.sizes, List.getElem?_map]
  cases dev.circBuffer.retained[index]? with
  | none => simp
  | some entry => simp

/-- The position an accepted request stores leads the reader to the requested
byte. -/
theorem find_seek_iff {dev : AesdDev} (wf : dev.circBuffer.WellFormed) (request : AesdSeekto)
    (inside : request.writeCmd.toNat < maxWriteOperations) :
    dev.circBuffer.aesdCircularBufferFindEntryOffsetForFpos
        (toSizeT (toInt32 (dev.circBuffer.slotPrefix request.writeCmd.toNat +
          request.writeCmdOffset.toNat))) =
        (some ((dev.circBuffer.outOffs + request.writeCmd.toNat) % maxWriteOperations),
          request.writeCmdOffset.toUInt64) ↔
      (dev.circBuffer.slotPrefix request.writeCmd.toNat % 2 ^ 32 =
          dev.circBuffer.entryPrefix request.writeCmd.toNat % 2 ^ 32 ∧
        (requestedPosition dev request % 2 ^ 64 < 2 ^ 31 ∨
          2 ^ 64 - 2 ^ 31 ≤ requestedPosition dev request % 2 ^ 64)) ∧
      (∀ earlier < request.writeCmd.toNat,
        dev.circBuffer.entryPrefix (earlier + 1) % 2 ^ 64 ≤
          requestedPosition dev request % 2 ^ 64) ∧
      requestedPosition dev request % 2 ^ 64 <
        dev.circBuffer.entryPrefix (request.writeCmd.toNat + 1) % 2 ^ 64 := by
  have stored := toSizeT_toInt32_eq_iff
    (dev.circBuffer.slotPrefix request.writeCmd.toNat + request.writeCmdOffset.toNat)
    (requestedPosition dev request % 2 ^ 64) (Nat.mod_lt _ (by decide))
  have residues : (dev.circBuffer.slotPrefix request.writeCmd.toNat +
        request.writeCmdOffset.toNat) % 2 ^ 32 =
          requestedPosition dev request % 2 ^ 64 % 2 ^ 32 ↔
      dev.circBuffer.slotPrefix request.writeCmd.toNat % 2 ^ 32 =
        dev.circBuffer.entryPrefix request.writeCmd.toNat % 2 ^ 32 := by
    unfold requestedPosition
    omega
  rw [Int.natCast_add] at stored
  rw [find_eq_iff wf inside, ← residues, ← stored, UInt32.toNat_toUInt64]
  constructor
  · rintro ⟨earlier, later, position⟩
    rw [position] at earlier later
    exact ⟨position, earlier, later⟩
  · rintro ⟨position, earlier, later⟩
    rw [← position] at earlier later
    exact ⟨earlier, later, position⟩

/-- With the oldest entry in slot 0, slots and retained entries are numbered alike. -/
theorem slotPrefix_of_straight {buffer : AesdCircularBuffer Address} (wf : buffer.WellFormed)
    (start : buffer.outOffs = 0) {count : Nat} (inside : count ≤ maxWriteOperations) :
    buffer.slotPrefix count = buffer.entryPrefix count := by
  have walked : ((List.range count).map fun index => (buffer.slot index).size.toNat) =
      (buffer.walk.take count).map fun entry => entry.size.toNat := by
    rw [AesdCircularBuffer.walk, start, Window.window_of_le _ le_rfl, ← List.map_take,
      List.take_range, Nat.min_eq_left inside, List.map_map]
    rfl
  have sizes : (buffer.walk.take count).map (fun entry => entry.size.toNat) =
      buffer.sizes.take count ++
        (List.replicate (maxWriteOperations - buffer.count) 0).take
          (count - buffer.sizes.length) := by
    rw [← List.take_append, wf.walk_eq, List.map_take, List.map_append, List.map_replicate]
    rfl
  rw [AesdCircularBuffer.slotPrefix, walked, sizes, List.sum_append,
    AesdCircularBuffer.entryPrefix, List.take_replicate]
  simp

theorem entryPrefix_succ (dev : AesdDev) (count : Nat) :
    dev.circBuffer.entryPrefix (count + 1) =
      dev.circBuffer.entryPrefix count + retainedSize dev count :=
  Locate.sum_take_succ dev.circBuffer.sizes count

theorem entryPrefix_mono (dev : AesdDev) {earlier later : Nat} (le : earlier ≤ later) :
    dev.circBuffer.entryPrefix earlier ≤ dev.circBuffer.entryPrefix later := by
  induction later, le using Nat.le_induction with
  | base => exact le_rfl
  | succ later _ ih => rw [entryPrefix_succ]; omega

theorem entryPrefix_le (dev : AesdDev) (count : Nat) :
    dev.circBuffer.entryPrefix count ≤ dev.circBuffer.sizes.sum := by
  have parts := List.sum_take_add_sum_drop dev.circBuffer.sizes count
  unfold AesdCircularBuffer.entryPrefix
  omega

theorem slot_size_of_straight {dev : AesdDev} (wf : dev.circBuffer.WellFormed)
    (start : dev.circBuffer.outOffs = 0) (index : Nat) :
    (dev.circBuffer.slot index).size.toNat = retainedSize dev index := by
  by_cases inside : index < maxWriteOperations
  · have before := slotPrefix_of_straight wf start inside.le
    have after := slotPrefix_of_straight wf start (Nat.succ_le_iff.mpr inside)
    rw [AesdCircularBuffer.slotPrefix, List.range_succ, List.map_append, List.sum_append,
      ← AesdCircularBuffer.slotPrefix, before, List.map_singleton, List.sum_singleton,
      entryPrefix_succ] at after
    omega
  · have few := wf.count_le
    rw [AesdCircularBuffer.slot_of_le _ (by omega), retainedSize,
      List.getElem?_eq_none (by simp [AesdCircularBuffer.sizes]; omega)]
    rfl

/-- Before the buffer has wrapped, and while it retains less than `2 ^ 31` bytes,
every request resolves. -/
theorem resolvesSeek_of_straight {dev : AesdDev} (wf : dev.circBuffer.WellFormed)
    (start : dev.circBuffer.outOffs = 0) (small : dev.circBuffer.sizes.sum < 2 ^ 31)
    (request : AesdSeekto) : ResolvesSeek dev request := by
  have next := entryPrefix_succ dev request.writeCmd.toNat
  have whole := entryPrefix_le dev (request.writeCmd.toNat + 1)
  have slotSize := slot_size_of_straight wf start request.writeCmd.toNat
  refine ⟨by rw [slotSize], fun inRange => ?_, fun inRange => ?_, fun inRange =>
    ⟨fun earlier before => ?_, ?_⟩⟩
  · have inside := dev.circBuffer.lt_of_slot_size_pos (Nat.zero_lt_of_lt inRange)
    rw [slotPrefix_of_straight wf start inside.le]
  · unfold requestedPosition
    omega
  · have le := entryPrefix_mono dev (show earlier + 1 ≤ request.writeCmd.toNat from before)
    unfold requestedPosition
    omega
  · unfold requestedPosition
    omega

/-- Seeking agrees with reading. On every buffer reached by additions of entries
that have bytes, a request succeeds exactly for the bytes of retained commands and
takes the reader there, if and only if it resolves. -/
theorem agreesWithRead_iff (entries : List (AesdBufferEntry Address))
    (positive : ∀ entry ∈ entries, 0 < entry.size) (dev : AesdDev)
    (reached : dev.circBuffer = AesdCircularBuffer.ofEntries entries) (request : AesdSeekto)
    (fPos : Int) : AgreesWithRead dev request fPos ↔ ResolvesSeek dev request := by
  have occupied : dev.circBuffer.Occupied :=
    reached ▸ AesdCircularBuffer.occupied_ofEntries positive
  rw [AgreesWithRead, aesdUnlockedIoctl_eq occupied, exists_retained_iff]
  by_cases inRange : request.writeCmdOffset.toNat <
      (dev.circBuffer.slot request.writeCmd.toNat).size.toNat
  · have inside := dev.circBuffer.lt_of_slot_size_pos (Nat.zero_lt_of_lt inRange)
    have found := find_seek_iff occupied.ring request inside
    rw [if_pos inRange]
    dsimp only
    rw [found]
    constructor
    · rintro ⟨range, arrives⟩
      obtain ⟨⟨sum, fits⟩, passed⟩ := arrives rfl
      exact ⟨iff_of_true inRange (range.mp rfl), fun _ => sum, fun _ => fits, fun _ => passed⟩
    · intro resolves
      exact ⟨iff_of_true rfl (resolves.sameRange.mp inRange), fun _ =>
        ⟨⟨resolves.sameSum inRange, resolves.fitsInt inRange⟩, resolves.passed inRange⟩⟩
  · have refused : ¬(-errnoEinval : Int) = 0 := by decide
    rw [if_neg inRange]
    constructor
    · rintro ⟨range, -⟩
      exact ⟨iff_of_false inRange (mt range.mpr refused), fun impossible =>
        absurd impossible inRange, fun impossible => absurd impossible inRange,
        fun impossible => absurd impossible inRange⟩
    · intro resolves
      exact ⟨iff_of_false refused (mt resolves.sameRange.mpr inRange), fun impossible =>
        absurd impossible refused⟩

/-- Two commands of three and four bytes, and the last byte of the first. -/
theorem agreesWithRead_two_commands :
    AgreesWithRead
      ⟨AesdCircularBuffer.ofEntries [⟨some (.block 0), 3⟩, ⟨some (.block 1), 4⟩], none, 0, 7⟩
      ⟨0, 2⟩ 0 :=
  (agreesWithRead_iff [⟨some (.block 0), 3⟩, ⟨some (.block 1), 4⟩] (by decide) _ rfl _ _).mpr
    ⟨by decide, by decide, by decide, by decide⟩

/-- After eleven commands the second oldest one is no longer in slot 1. -/
theorem not_agreesWithRead_wrapped :
    ¬AgreesWithRead
      ⟨AesdCircularBuffer.ofEntries
        ((List.range 11).map fun id => ⟨some (.block id), .ofNat (id + 1)⟩), none, 0, 65⟩
      ⟨1, 0⟩ 0 := by
  intro agrees
  have found := agrees.2 (by decide)
  revert found
  decide

end Aesd
