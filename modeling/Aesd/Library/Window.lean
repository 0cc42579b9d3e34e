import Mathlib.Data.List.DropRight
import Mathlib.Tactic.Common

/-!
# Windows into circular storage

A bounded queue kept in a fixed number of slots is read by walking from a start
slot with wraparound. `window` is that walk, and `push` is the abstract queue:
it keeps the last `capacity` values of a history. The two lemmas
`window_append` and `window_replace` say how one store into a slot changes the
walk, which is all a ring buffer needs to refine the abstract queue.
-/

namespace Window

universe u

variable {α : Type u}

/-- The values met when walking `count` slots from `start`, wrapping at
`capacity`. -/
def window (slot : Nat → α) (capacity start count : Nat) : List α :=
  (List.range count).map fun offset => slot ((start + offset) % capacity)

@[simp] theorem length_window (slot : Nat → α) (capacity start count : Nat) :
    (window slot capacity start count).length = count := by
  simp [window]

@[simp] theorem window_zero (slot : Nat → α) (capacity start : Nat) :
    window slot capacity start 0 = [] := rfl

theorem getElem?_window (slot : Nat → α) {capacity start count offset : Nat}
    (inside : offset < count) :
    (window slot capacity start count)[offset]? =
      some (slot ((start + offset) % capacity)) := by
  simp [window, inside]

theorem window_succ (slot : Nat → α) (capacity start count : Nat) :
    window slot capacity start (count + 1) =
      window slot capacity start count ++ [slot ((start + count) % capacity)] := by
  simp [window, List.range_succ]

/-- The walk from a slot is that slot followed by the walk from the next. -/
theorem window_succ' (slot : Nat → α) (capacity start count : Nat) :
    window slot capacity start (count + 1) =
      slot (start % capacity) :: window slot capacity ((start + 1) % capacity) count := by
  simp only [window, List.range_succ_eq_map, List.map_cons, List.map_map, Nat.add_zero]
  congr 1
  apply List.map_congr_left
  intro offset _
  simp only [Function.comp, Nat.mod_add_mod]
  congr 2
  omega

/-- A walk of `first + second` slots is two walks. -/
theorem window_add (slot : Nat → α) (capacity start first second : Nat) :
    window slot capacity start (first + second) =
      window slot capacity start first ++
        window slot capacity ((start + first) % capacity) second := by
  induction second with
  | zero => simp
  | succ second ih =>
      rw [← Nat.add_assoc, window_succ, ih, window_succ, List.append_assoc]
      simp only [Nat.mod_add_mod, Nat.add_assoc]

/-- A walk from slot 0 that does not wrap meets the slots in order. -/
theorem window_of_le (slot : Nat → α) {capacity count : Nat} (fits : count ≤ capacity) :
    window slot capacity 0 count = (List.range count).map slot := by
  apply List.map_congr_left
  intro offset member
  have inside := List.mem_range.mp member
  rw [Nat.zero_add, Nat.mod_eq_of_lt (by omega)]

/-- A full walk meets every slot once, wherever it starts. -/
theorem window_perm (slot : Nat → α) {capacity start : Nat} (bound : start < capacity) :
    (window slot capacity start capacity).Perm ((List.range capacity).map slot) := by
  obtain ⟨rest, rfl⟩ := Nat.exists_eq_add_of_le bound.le
  have wrapped : window slot (start + rest) start (start + rest) =
      window slot (start + rest) start rest ++ window slot (start + rest) 0 start := by
    conv_lhs => rw [Nat.add_comm start rest, window_add, Nat.add_comm rest start, Nat.mod_self]
  have straight : (List.range (start + rest)).map slot =
      window slot (start + rest) 0 start ++ window slot (start + rest) start rest := by
    rw [← window_of_le slot le_rfl, window_add, Nat.zero_add, Nat.mod_eq_of_lt bound]
  rw [wrapped, straight]
  exact List.perm_append_comm

/-- The walk depends only on the slots it meets. -/
theorem window_congr {slot other : Nat → α} {capacity start count : Nat}
    (same : ∀ offset < count,
      slot ((start + offset) % capacity) = other ((start + offset) % capacity)) :
    window slot capacity start count = window other capacity start count := by
  apply List.map_congr_left
  intro offset member
  exact same offset (List.mem_range.mp member)

/-- Two offsets below the capacity name different slots. -/
theorem offset_ne {capacity start first second : Nat} (lt : first < second)
    (bound : second < capacity) :
    (start + first) % capacity ≠ (start + second) % capacity := by
  intro same
  have divides : capacity ∣ (start + second) - (start + first) :=
    Nat.dvd_of_mod_eq_zero (Nat.sub_mod_eq_zero_of_mod_eq same.symm)
  have small := Nat.le_of_dvd (by omega) divides
  omega

/-- Storing into the first free slot appends to the walk. -/
theorem window_append {slot updated : Nat → α} {capacity start count : Nat} {value : α}
    (room : count < capacity)
    (stored : updated ((start + count) % capacity) = value)
    (others : ∀ index, index ≠ (start + count) % capacity → updated index = slot index) :
    window updated capacity start (count + 1) =
      window slot capacity start count ++ [value] := by
  rw [window_succ, stored]
  congr 1
  apply window_congr
  intro offset inside
  exact others _ (offset_ne inside room)

/-- Storing over the oldest slot of a full walk drops the oldest value and
appends the new one. -/
theorem window_replace {slot updated : Nat → α} {capacity start : Nat} {value : α}
    (startLt : start < capacity) (stored : updated start = value)
    (others : ∀ index, index ≠ start → updated index = slot index) :
    window updated capacity ((start + 1) % capacity) capacity =
      (window slot capacity start capacity).tail ++ [value] := by
  obtain ⟨count, rfl⟩ : ∃ count, capacity = count + 1 := ⟨capacity - 1, by omega⟩
  have lastSlot : ((start + 1) % (count + 1) + count) % (count + 1) = start := by
    rw [Nat.mod_add_mod, show start + 1 + count = start + (count + 1) by omega,
      Nat.add_mod_right, Nat.mod_eq_of_lt startLt]
  rw [window_succ updated, window_succ' slot, lastSlot, stored, List.tail_cons]
  congr 1
  apply window_congr
  intro offset inside
  apply others
  have apart : (start + 0) % (count + 1) ≠ (start + (offset + 1)) % (count + 1) :=
    offset_ne (Nat.succ_pos offset) (by omega)
  rw [Nat.add_zero, Nat.mod_eq_of_lt startLt] at apart
  rw [Nat.mod_add_mod, show start + 1 + offset = start + (offset + 1) by omega]
  exact apart.symm

/-- The abstract bounded queue: append, then keep the last `capacity` values. -/
def push (capacity : Nat) (queue : List α) (value : α) : List α :=
  (queue ++ [value]).rtake capacity

theorem push_of_lt {capacity : Nat} {queue : List α} {value : α}
    (room : queue.length < capacity) : push capacity queue value = queue ++ [value] := by
  rw [push, List.rtake, List.length_append, List.length_singleton,
    show queue.length + 1 - capacity = 0 by omega, List.drop_zero]

theorem push_of_eq {capacity : Nat} {queue : List α} {value : α}
    (full : queue.length = capacity) (positive : 0 < capacity) :
    push capacity queue value = queue.tail ++ [value] := by
  rw [push, List.rtake, List.length_append, List.length_singleton,
    show queue.length + 1 - capacity = 1 by omega, List.drop_one]
  cases queue with
  | nil => simp at full; omega
  | cons oldest rest => rfl

/-- Keeping the last values of a history one by one or all at once is the
same. -/
theorem push_rtake (capacity : Nat) (history : List α) (value : α) :
    push capacity (history.rtake capacity) value = (history ++ [value]).rtake capacity := by
  simp only [push, List.rtake, List.length_append, List.length_drop, List.length_singleton]
  by_cases fits : history.length ≤ capacity
  · rw [show history.length - capacity = 0 by omega, List.drop_zero, Nat.sub_zero]
  · rw [← List.drop_append_of_le_length (by omega : history.length - capacity ≤ history.length),
      List.drop_drop]
    congr 1
    omega

theorem rtake_of_length_le {capacity : Nat} {history : List α}
    (fits : history.length ≤ capacity) : history.rtake capacity = history := by
  rw [List.rtake, Nat.sub_eq_zero_of_le fits, List.drop_zero]

theorem length_rtake (capacity : Nat) (history : List α) :
    (history.rtake capacity).length = min history.length capacity := by
  rw [List.rtake, List.length_drop]
  omega

theorem rtake_map {β : Type*} (image : α → β) (capacity : Nat) (history : List α) :
    (history.rtake capacity).map image = (history.map image).rtake capacity := by
  simp [List.rtake, List.map_drop]

end Window
