import Aesd.CircularBuffer.Layout
import Aesd.Library.Runs

/-!
# Buffers built by additions

A buffer is built by adding entries to a fresh one, so everything it holds is a
function of the history of additions: it retains the last ten entries, and the
lookup finds the bytes of their concatenation. `HandsOver` is what an addition
to a full buffer is for: its caller gets the evicted entry. The returned pointer
is to the slot the same call stores into, so the caller finds the new entry
there.
-/

namespace Aesd.AesdCircularBuffer

universe u

variable {Pointer : Type u}

/-- The buffer after additions, oldest first, to a fresh one. -/
def ofEntries (entries : List (AesdBufferEntry Pointer)) : AesdCircularBuffer Pointer :=
  Runs.run (fun buffer entry => (buffer.aesdCircularBufferAddEntry entry).2)
    aesdCircularBufferInit entries

theorem ofEntries_append_singleton (entries : List (AesdBufferEntry Pointer))
    (entry : AesdBufferEntry Pointer) :
    ofEntries (entries ++ [entry]) =
      ((ofEntries entries).aesdCircularBufferAddEntry entry).2 := by
  rw [ofEntries, Runs.run_append]
  rfl

theorem wellFormed_ofEntries (entries : List (AesdBufferEntry Pointer)) :
    (ofEntries entries).WellFormed :=
  Runs.invariant_always WellFormed (fun _ entry wf => wf.addEntry entry) entries wellFormed_init

/-- A buffer retains the last ten entries added to it. -/
theorem retained_ofEntries (entries : List (AesdBufferEntry Pointer)) :
    (ofEntries entries).retained = entries.rtake maxWriteOperations := by
  induction entries using List.reverseRecOn with
  | nil => rfl
  | append_singleton entries entry ih =>
      rw [ofEntries_append_singleton, (wellFormed_ofEntries entries).retained_addEntry, ih,
        Window.push_rtake]

theorem count_ofEntries (entries : List (AesdBufferEntry Pointer)) :
    (ofEntries entries).count = min entries.length maxWriteOperations := by
  rw [← length_retained, retained_ofEntries, Window.length_rtake]

theorem full_ofEntries_iff (entries : List (AesdBufferEntry Pointer)) :
    (ofEntries entries).full = true ↔ maxWriteOperations ≤ entries.length := by
  rw [(wellFormed_ofEntries entries).full_iff, length_retained, count_ofEntries]
  omega

/-! ## The last ten entries -/

/-- No addition of the history has stored into the slot. -/
def NeverWritten (history : List (AesdBufferEntry Pointer)) (index : Nat) : Prop :=
  ∀ earlier entry, earlier ++ [entry] <+: history → (ofEntries earlier).inOffs ≠ index

/-- A slot no addition has stored into is as `memset` left it. -/
theorem slot_of_neverWritten {history : List (AesdBufferEntry Pointer)} {index : Nat}
    (never : NeverWritten history index) : (ofEntries history).slot index = .zero := by
  induction history using List.reverseRecOn with
  | nil => exact slot_init index
  | append_singleton history entry ih =>
      have elsewhere : index ≠ (ofEntries history).inOffs :=
        (never history entry List.prefix_rfl).symm
      rw [ofEntries_append_singleton, slot_addEntry_of_ne _ _ elsewhere]
      exact ih fun earlier added isPrefix =>
        never earlier added (isPrefix.trans (List.prefix_append _ _))

/-- The buffer is a queue of the last ten entries of a history. -/
structure HoldsLast (buffer : AesdCircularBuffer Pointer)
    (history : List (AesdBufferEntry Pointer)) : Prop where
  read : Window.window buffer.slot maxWriteOperations buffer.outOffs
      (min history.length maxWriteOperations) =
    history.rtake (min history.length maxWriteOperations)
  inOffs_lt : buffer.inOffs < maxWriteOperations
  outOffs_lt : buffer.outOffs < maxWriteOperations
  full_iff : buffer.full = true ↔ maxWriteOperations ≤ history.length
  offs_iff : buffer.inOffs = buffer.outOffs ↔ history = [] ∨ buffer.full = true
  unwritten : ∀ index, NeverWritten history index →
    (buffer.slot index).size = 0 ∧ (buffer.slot index).buffptr = none

/-- Where the offsets of a buffer meet. -/
theorem offs_ofEntries_iff (history : List (AesdBufferEntry Pointer)) :
    (ofEntries history).inOffs = (ofEntries history).outOffs ↔
      history = [] ∨ (ofEntries history).full = true := by
  have wf := wellFormed_ofEntries history
  have length := count_ofEntries history
  cases full : (ofEntries history).full with
  | true => simpa using wf.full_offs full
  | false =>
      have room := wf.inOffs_lt
      rw [count, full] at length
      simp only [Bool.false_eq_true, if_false] at length
      rw [wf.open_offs full, length, ← List.length_eq_zero_iff]
      simp only [Bool.false_eq_true, or_false]
      omega

/-- Ring refinement. Whatever is added to a fresh buffer, it is a queue of the last ten
entries. -/
theorem holdsLast_ofEntries (entries : List (AesdBufferEntry Pointer)) :
    (ofEntries entries).HoldsLast entries where
  read := by
    have kept := retained_ofEntries entries
    rw [retained, count_ofEntries] at kept
    rw [kept, List.rtake, List.rtake]
    congr 1
    omega
  inOffs_lt := (wellFormed_ofEntries entries).inOffs_lt
  outOffs_lt := (wellFormed_ofEntries entries).outOffs_lt
  full_iff := full_ofEntries_iff entries
  offs_iff := offs_ofEntries_iff entries
  unwritten := fun index never => by
    rw [slot_of_neverWritten never]
    exact ⟨rfl, rfl⟩

/-! ## The position lookup -/

/-- The sizes of some entries. -/
def entrySizes (entries : List (AesdBufferEntry Pointer)) : List Nat :=
  entries.map fun entry => entry.size.toNat

/-- The lookup resolves a position in the concatenation of these entries, oldest first.
It returns `NULL` exactly from the total size on. Before that one entry has the
position in its range, and the lookup returns its slot and the offset into it; there
the buffer of the entry has the byte of the concatenation. -/
structure Resolves (buffer : AesdCircularBuffer Pointer)
    (entries : List (AesdBufferEntry Pointer)) (charOffset : UInt64) : Prop where
  null_iff : (buffer.aesdCircularBufferFindEntryOffsetForFpos charOffset).1 = none ↔
    (entrySizes entries).sum ≤ charOffset.toNat
  unique : charOffset.toNat < (entrySizes entries).sum →
    ∃! index, Locate.InSegment (entrySizes entries) charOffset.toNat index
  found : ∀ index, Locate.InSegment (entrySizes entries) charOffset.toNat index →
    ∃ entry offset, entries[index]? = some entry ∧
      buffer.aesdCircularBufferFindEntryOffsetForFpos charOffset =
        (some ((buffer.outOffs + index) % maxWriteOperations), offset) ∧
      buffer.slot ((buffer.outOffs + index) % maxWriteOperations) = entry ∧
      offset.toNat = charOffset.toNat - ((entrySizes entries).take index).sum ∧
      offset < entry.size
  byte : ∀ load : AesdBufferEntry Pointer → List UInt8,
    (∀ entry ∈ entries, (load entry).length = entry.size.toNat) →
      ∀ index offset,
        buffer.aesdCircularBufferFindEntryOffsetForFpos charOffset = (some index, offset) →
          (entries.map load).flatten[charOffset.toNat]? =
            (load (buffer.slot index))[offset.toNat]?

/-- What the lookup returns for a located position. -/
theorem find_of_locate {buffer : AesdCircularBuffer Pointer} (wf : buffer.WellFormed)
    (noWrap : buffer.sizes.sum < 2 ^ 64) {charOffset : UInt64} {index offset : Nat}
    (located : Locate.locate buffer.sizes charOffset.toNat = some (index, offset)) :
    ∃ entry, buffer.retained[index]? = some entry ∧
      buffer.aesdCircularBufferFindEntryOffsetForFpos charOffset =
        (some ((buffer.outOffs + index) % maxWriteOperations), .ofNat offset) ∧
      (UInt64.ofNat offset).toNat = offset ∧ offset < entry.size.toNat := by
  obtain ⟨size, selected, inside, -⟩ := (Locate.locate_eq_some_iff ..).mp located
  obtain ⟨entry, retained, rfl⟩ : ∃ entry,
      buffer.retained[index]? = some entry ∧ entry.size.toNat = size := by
    simpa [sizes] using selected
  have small : offset < 2 ^ 64 := inside.trans entry.size.toNat_lt
  refine ⟨entry, retained, ?_, ?_, inside⟩
  · rw [find_eq_locate wf noWrap, located]
  · rw [UInt64.toNat_ofNat', Nat.mod_eq_of_lt small]

/-- Position lookup. On every buffer built by additions that retains less than `2 ^ 64`
bytes, and for every position, the lookup resolves the position in the concatenation
of the last ten entries. -/
theorem resolves_ofEntries (entries : List (AesdBufferEntry Pointer))
    (noWrap : (entrySizes (entries.rtake maxWriteOperations)).sum < 2 ^ 64)
    (charOffset : UInt64) :
    (ofEntries entries).Resolves (entries.rtake maxWriteOperations) charOffset := by
  have wf := wellFormed_ofEntries entries
  rw [← retained_ofEntries] at noWrap ⊢
  exact {
    null_iff := by
      rw [find_eq_locate wf noWrap, entrySizes, ← sizes, ← Locate.locate_eq_none_iff]
      cases Locate.locate (ofEntries entries).sizes charOffset.toNat <;> simp
    unique := Locate.existsUnique_inSegment
    found := by
      intro index inRange
      obtain ⟨entry, retained, result, value, inside⟩ :=
        find_of_locate wf noWrap ((Locate.inSegment_iff ..).mp inRange)
      exact ⟨entry, _, retained, result, slot_of_retained retained, value,
        UInt64.lt_iff_toNat_lt.mpr (by rwa [value])⟩
    byte := by
      intro load lengths index offset result
      obtain ⟨⟨segment, rest⟩, located⟩ : ∃ found,
          Locate.locate (ofEntries entries).sizes charOffset.toNat = some found := by
        refine Option.ne_none_iff_exists'.mp fun missing => ?_
        rw [find_eq_locate wf noWrap, missing] at result
        exact absurd result (by simp)
      obtain ⟨entry, retained, found, value, -⟩ := find_of_locate wf noWrap located
      rw [found] at result
      obtain ⟨same, rfl⟩ := Prod.mk.inj result
      rw [← Option.some.inj same, slot_of_retained retained, value]
      refine Locate.getElem?_flatten_of_locate ?_ (by rw [List.getElem?_map, retained]; rfl)
      rw [List.map_map, ← located, sizes]
      congr 1
      exact List.map_congr_left fun entry member => lengths entry member }

/-- Eleven entries, the second oldest of the retained ones without bytes, and the first
byte after it. -/
theorem resolves_eleven_entries :
    (ofEntries ((List.range 11).map fun id =>
        (⟨some id, if id = 2 then 0 else 3⟩ : AesdBufferEntry Nat))).Resolves
      (((List.range 11).map fun id =>
        (⟨some id, if id = 2 then 0 else 3⟩ : AesdBufferEntry Nat)).rtake maxWriteOperations)
      3 :=
  resolves_ofEntries
    ((List.range 11).map fun id =>
      (⟨some id, if id = 2 then 0 else 3⟩ : AesdBufferEntry Nat))
    (by decide) 3

/-! ## Eviction -/

/-- What the caller of an addition finds through the returned pointer after the call. -/
def seen (result : Option Nat × AesdCircularBuffer Pointer) : Option (AesdBufferEntry Pointer) :=
  result.1.map result.2.slot

/-- The addition hands over the entry it evicts: the result is `NULL` exactly if the buffer
has room, and otherwise the caller finds the entry that was the oldest one. -/
structure HandsOver (buffer : AesdCircularBuffer Pointer) (entry : AesdBufferEntry Pointer) :
    Prop where
  null_iff : (buffer.aesdCircularBufferAddEntry entry).1 = none ↔ buffer.full = false
  oldest : (buffer.aesdCircularBufferAddEntry entry).1 ≠ none →
    seen (buffer.aesdCircularBufferAddEntry entry) = buffer.retained.head?

/-- An addition, with a record of what the callers find. -/
def recordedAdd (state : AesdCircularBuffer Pointer × List (AesdBufferEntry Pointer))
    (entry : AesdBufferEntry Pointer) :
    AesdCircularBuffer Pointer × List (AesdBufferEntry Pointer) :=
  let result := state.1.aesdCircularBufferAddEntry entry
  (result.2, state.2 ++ (seen result).toList)

/-- What the callers of the additions have found through the returned pointers. -/
def returned (entries : List (AesdBufferEntry Pointer)) : List (AesdBufferEntry Pointer) :=
  (Runs.run recordedAdd (aesdCircularBufferInit, []) entries).2

/-- Every addition of a run hands over what it evicts, and the entries handed over and the
retained ones are the added ones, each once. -/
def HandsOverAlong (entries : List (AesdBufferEntry Pointer)) : Prop :=
  Runs.Along (fun buffer entry => (buffer.aesdCircularBufferAddEntry entry).2) HandsOver
      aesdCircularBufferInit entries ∧
    (returned entries ++ (ofEntries entries).retained).Perm entries

/-- From the eleventh on, every entry is the one added ten additions before it. -/
def RecursEveryTen (entries : List (AesdBufferEntry Pointer)) : Prop :=
  ∀ index, index + maxWriteOperations < entries.length →
    entries[index + maxWriteOperations]? = entries[index]?

/-- The returned pointer is to the slot of the new entry. -/
theorem seen_addEntry {buffer : AesdCircularBuffer Pointer} (wf : buffer.WellFormed)
    (entry : AesdBufferEntry Pointer) :
    seen (buffer.aesdCircularBufferAddEntry entry) =
      if buffer.full then some entry else none := by
  rw [seen, fst_addEntry]
  cases full : buffer.full with
  | true => simp [← wf.full_offs full, slot_addEntry_self buffer entry wf.inOffs_lt]
  | false => rfl

/-- A full buffer hands over the evicted entry only if the new one is the same. -/
theorem handsOver_iff {buffer : AesdCircularBuffer Pointer} (wf : buffer.WellFormed)
    (entry : AesdBufferEntry Pointer) :
    buffer.HandsOver entry ↔ (buffer.full = true → buffer.retained.head? = some entry) := by
  have found := seen_addEntry wf entry
  have result := fst_addEntry buffer entry
  constructor
  · intro handsOver full
    rw [if_pos full] at found result
    rw [← handsOver.oldest (by simp [result]), found]
  · intro same
    refine ⟨by simp [result], fun nonnull => ?_⟩
    have full : buffer.full = true := by simpa [result] using nonnull
    rw [found, if_pos full, same full]

theorem returned_append_singleton (entries : List (AesdBufferEntry Pointer))
    (entry : AesdBufferEntry Pointer) :
    returned (entries ++ [entry]) =
      returned entries ++ if (ofEntries entries).full then [entry] else [] := by
  have same : (Runs.run recordedAdd (aesdCircularBufferInit, []) entries).1 =
      ofEntries entries := by
    induction entries using List.reverseRecOn with
    | nil => rfl
    | append_singleton entries entry ih =>
        rw [Runs.run_append, ofEntries_append_singleton, ← ih]
        rfl
  rw [returned, Runs.run_append, Runs.run_cons, Runs.run_nil, recordedAdd, same]
  dsimp only
  rw [seen_addEntry (wellFormed_ofEntries entries), ← returned]
  cases (ofEntries entries).full <;> rfl

/-- The oldest entry of a full buffer. -/
theorem head?_retained_ofEntries (entries : List (AesdBufferEntry Pointer)) :
    (ofEntries entries).retained.head? = entries[entries.length - maxWriteOperations]? := by
  rw [retained_ofEntries, List.rtake, List.head?_drop]

theorem recursEveryTen_append_singleton (entries : List (AesdBufferEntry Pointer))
    (entry : AesdBufferEntry Pointer) :
    RecursEveryTen (entries ++ [entry]) ↔
      RecursEveryTen entries ∧ (maxWriteOperations ≤ entries.length →
        entries[entries.length - maxWriteOperations]? = some entry) := by
  constructor
  · intro recurs
    refine ⟨fun index inside => ?_, fun enough => ?_⟩
    · have same := recurs index (by simp; omega)
      rwa [List.getElem?_append_left inside, List.getElem?_append_left (by omega)] at same
    · have same := recurs (entries.length - maxWriteOperations) (by simp; omega)
      rw [Nat.sub_add_cancel enough, List.getElem?_concat_length,
        List.getElem?_append_left (by unfold maxWriteOperations at *; omega)] at same
      exact same.symm
  · rintro ⟨recurs, last⟩ index inside
    rw [List.length_append, List.length_singleton] at inside
    by_cases earlier : index + maxWriteOperations < entries.length
    · rw [List.getElem?_append_left earlier, List.getElem?_append_left (by omega),
        recurs index earlier]
    · have here : index = entries.length - maxWriteOperations := by omega
      have same := last (by omega)
      rw [← here] at same
      rw [show index + maxWriteOperations = entries.length by omega, List.getElem?_concat_length,
        List.getElem?_append_left (by unfold maxWriteOperations at *; omega), same]

/-- Additions that each hand over what they evict lose nothing and repeat nothing. -/
theorem returned_append_retained {entries : List (AesdBufferEntry Pointer)}
    (recurs : RecursEveryTen entries) :
    returned entries ++ (ofEntries entries).retained = entries := by
  induction entries using List.reverseRecOn with
  | nil => rfl
  | append_singleton entries entry ih =>
      obtain ⟨before, last⟩ := (recursEveryTen_append_singleton entries entry).mp recurs
      have wf := wellFormed_ofEntries entries
      rw [returned_append_singleton, ofEntries_append_singleton, wf.retained_addEntry]
      conv_rhs => rw [← ih before]
      cases full : (ofEntries entries).full with
      | true =>
          have oldest := last ((full_ofEntries_iff entries).mp full)
          rw [← head?_retained_ofEntries] at oldest
          obtain ⟨rest, retained⟩ := List.head?_eq_some_iff.mp oldest
          rw [Window.push_of_eq (wf.full_iff.mp full) (by decide), retained]
          simp
      | false =>
          rw [Window.push_of_lt (wf.length_retained_lt full)]
          simp

/-- Eviction. The additions of a run hand over what they evict if and only if no addition
to a full buffer changes what it retains: each puts in the very entry it evicts. -/
theorem handsOverAlong_iff (entries : List (AesdBufferEntry Pointer)) :
    HandsOverAlong entries ↔ RecursEveryTen entries := by
  have along : Runs.Along
      (fun (buffer : AesdCircularBuffer Pointer) entry =>
        (buffer.aesdCircularBufferAddEntry entry).2)
      HandsOver aesdCircularBufferInit entries ↔ RecursEveryTen entries := by
    induction entries using List.reverseRecOn with
    | nil => simp [RecursEveryTen]
    | append_singleton entries entry ih =>
        rw [Runs.Along.append_iff, ih, recursEveryTen_append_singleton, Runs.Along.cons_iff]
        have last := handsOver_iff (wellFormed_ofEntries entries) entry
        rw [full_ofEntries_iff, head?_retained_ofEntries] at last
        rw [← last]
        simp [ofEntries]
  rw [HandsOverAlong, along]
  exact ⟨And.left, fun recurs => ⟨recurs, .of_eq (returned_append_retained recurs)⟩⟩

/-- The eleventh of eleven different entries evicts the first, and its caller finds the
eleventh. -/
theorem not_handsOverAlong_eleven_entries :
    ¬HandsOverAlong ((List.range 11).map fun id => (⟨some id, 1⟩ : AesdBufferEntry Nat)) := by
  rintro ⟨along, -⟩
  rw [List.range_succ, List.map_append, Runs.Along.append_iff] at along
  have found := along.2.1.oldest (by decide)
  revert found
  decide

end Aesd.AesdCircularBuffer
