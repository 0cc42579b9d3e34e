import Mathlib.Data.List.Basic
import Mathlib.Tactic.Common

/-!
# Regular files and their descriptors

A regular file is the list of its bytes. A descriptor that was opened on its own
has its own position in the file, and a write goes to that position, wherever
the end of the file is: only a write at the end appends.
-/

namespace OpenFile

/-- `write` at a position of a file. A gap behind the end is filled with zeros. -/
def writeAt (file : List UInt8) (position : Nat) (bytes : List UInt8) : List UInt8 :=
  if bytes = [] then file
  else
    file.take position ++ List.replicate (position - file.length) 0 ++ bytes ++
      file.drop (position + bytes.length)

/-- `read` at a position of a file. -/
def readAt (file : List UInt8) (position count : Nat) : List UInt8 :=
  (file.drop position).take count

@[simp] theorem writeAt_nil (file : List UInt8) (position : Nat) :
    writeAt file position [] = file := if_pos rfl

/-- A write at the end appends. -/
theorem writeAt_length (file bytes : List UInt8) :
    writeAt file file.length bytes = file ++ bytes := by
  unfold writeAt
  split
  next empty => rw [empty, List.append_nil]
  next => simp

theorem length_writeAt {bytes : List UInt8} (nonempty : bytes ≠ []) (file : List UInt8)
    (position : Nat) :
    (writeAt file position bytes).length = max file.length (position + bytes.length) := by
  rw [writeAt, if_neg nonempty]
  simp only [List.length_append, List.length_take, List.length_replicate, List.length_drop]
  omega

/-- Nothing else does. -/
theorem writeAt_eq_append_iff (file bytes : List UInt8) (position : Nat) :
    writeAt file position bytes = file ++ bytes ↔ bytes = [] ∨ position = file.length := by
  constructor
  · intro appended
    by_cases empty : bytes = []
    · exact .inl empty
    · have lengths := congrArg List.length appended
      have positive := List.length_pos_of_ne_nil empty
      rw [length_writeAt empty, List.length_append] at lengths
      exact .inr (by omega)
  · rintro (rfl | rfl)
    · simp
    · exact writeAt_length file bytes

/-- Before the end of a file a read gets something. -/
theorem readAt_eq_nil_iff (file : List UInt8) (position : Nat) {count : Nat}
    (positive : 0 < count) : readAt file position count = [] ↔ file.length ≤ position := by
  rw [readAt, List.take_eq_nil_iff, List.drop_eq_nil_iff]
  omega

theorem readAt_append_drop (file : List UInt8) (position count : Nat) :
    readAt file position count ++ file.drop (position + (readAt file position count).length) =
      file.drop position := by
  have rest : file.drop (position + (readAt file position count).length) =
      (file.drop position).drop count := by
    rw [readAt, List.length_take, List.length_drop, List.drop_drop]
    by_cases inside : count ≤ file.length - position
    · rw [Nat.min_eq_left inside]
    · rw [List.drop_eq_nil_of_le (by omega), List.drop_eq_nil_of_le (by omega)]
  rw [rest, readAt, List.take_append_drop]

end OpenFile
