import Mathlib.Data.List.Basic
import Mathlib.Data.Nat.Find
import Mathlib.Tactic.Common

/-!
# Descriptor tables

A process has a table that says which file each of its descriptors is open on. A file that is
opened gets the lowest descriptor that is unused, a fork copies the table, and `dup2` and `close`
change one entry of it.

Nothing here knows what the files are.
-/

namespace Descriptors

universe u

/-- The file of each descriptor. From some descriptor on, none is used. -/
@[ext] structure Table (File : Type u) where
  get : Nat → Option File
  bounded : ∃ limit, ∀ fd, limit ≤ fd → get fd = none

namespace Table

variable {File : Type u}

theorem exists_unused (table : Table File) : ∃ fd, table.get fd = none := by
  obtain ⟨limit, unused⟩ := table.bounded
  exact ⟨limit, unused limit (Nat.le_refl _)⟩

/-- The descriptor that `open` returns. -/
def lowest (table : Table File) : Nat := Nat.find table.exists_unused

/-- The descriptor becomes what is said. -/
def set (table : Table File) (fd : Nat) (entry : Option File) : Table File where
  get other := if other = fd then entry else table.get other
  bounded := by
    obtain ⟨limit, unused⟩ := table.bounded
    refine ⟨max limit (fd + 1), ?_⟩
    intro other above
    rw [if_neg (by omega)]
    exact unused other (by omega)

/-- A file is opened. -/
def openFile (table : Table File) (file : File) : Table File := table.set table.lowest (some file)

/-- `close`. -/
def close (table : Table File) (fd : Nat) : Table File := table.set fd none

/-- `dup2`: the second descriptor is open on the file of the first. -/
def dup2 (table : Table File) (old new : Nat) : Table File := table.set new (table.get old)

/-- Files are opened one after another. -/
def openAll (table : Table File) (files : List File) : Table File := files.foldl openFile table

variable {table : Table File} {file : File} {files : List File} {fd other : Nat}
  {entry : Option File}

@[simp] theorem get_set : (table.set fd entry).get other =
    if other = fd then entry else table.get other := rfl

@[simp] theorem get_openFile : (table.openFile file).get other =
    if other = table.lowest then some file else table.get other := rfl

@[simp] theorem get_close : (table.close fd).get other =
    if other = fd then none else table.get other := rfl

@[simp] theorem get_dup2 {old new : Nat} : (table.dup2 old new).get other =
    if other = new then table.get old else table.get other := rfl

@[simp] theorem openAll_nil : table.openAll [] = table := rfl

@[simp] theorem openAll_cons :
    table.openAll (file :: files) = (table.openFile file).openAll files := rfl

theorem openAll_append (more : List File) :
    table.openAll (files ++ more) = (table.openAll files).openAll more :=
  List.foldl_append ..

@[simp] theorem get_lowest (table : Table File) : table.get table.lowest = none :=
  Nat.find_spec table.exists_unused

theorem lowest_le (unused : table.get fd = none) : table.lowest ≤ fd :=
  Nat.find_min' table.exists_unused unused

/-- A file that is closed again leaves no trace. -/
theorem close_openFile (table : Table File) (file : File) :
    (table.openFile file).close table.lowest = table := by
  ext1
  funext other
  by_cases same : other = table.lowest
  case pos => simp [same]
  case neg => simp [same]

/-- A descriptor that is used stays open on its file. -/
theorem get_openFile_of_some (used : table.get fd = some file) (new : File) :
    (table.openFile new).get fd = some file := by
  rw [get_openFile, if_neg]
  · exact used
  · rintro rfl
    rw [get_lowest] at used
    cases used

theorem get_openAll_of_some (used : table.get fd = some file) (files : List File) :
    (table.openAll files).get fd = some file := by
  induction files generalizing table with
  | nil => exact used
  | cons new files ih => exact ih (get_openFile_of_some used new)

/-- What is open has been open before or is one of the files. -/
theorem get_openAll (isOpen : (table.openAll files).get fd = some file) :
    table.get fd = some file ∨ table.get fd = none ∧ file ∈ files := by
  induction files generalizing table with
  | nil => exact .inl isOpen
  | cons new files ih =>
      have unused := table.get_lowest
      rcases ih isOpen with earlier | ⟨closed, member⟩
      · rw [get_openFile] at earlier
        split at earlier
        next same =>
          obtain rfl := Option.some.inj earlier
          exact .inr ⟨same ▸ unused, List.mem_cons_self⟩
        next => exact .inl earlier
      · rw [get_openFile] at closed
        split at closed
        next => cases closed
        next => exact .inr ⟨closed, List.mem_cons_of_mem _ member⟩

/-- A file is on the first descriptors, after others have been opened, only if it has been there
before: the first of the others takes the first descriptor that is missing. -/
theorem forall_get_openAll_iff {first : File} (other : first ≠ file) (files : List File)
    (count : Nat) :
    (∀ fd < count, (table.openAll (first :: files)).get fd = some file) ↔
      ∀ fd < count, table.get fd = some file := by
  constructor
  case mp =>
    intro after fd below
    rcases get_openAll (after fd below) with before | ⟨unused, -⟩
    · exact before
    · have taken : (table.openFile first).get table.lowest = some first := by simp
      have stays := get_openAll_of_some taken files
      have claimed := after table.lowest (lt_of_le_of_lt (lowest_le unused) below)
      exact absurd (Option.some.inj (stays.symm.trans claimed)) other
  case mpr =>
    intro before fd below
    exact get_openAll_of_some (before fd below) (first :: files)

end Table

end Descriptors
