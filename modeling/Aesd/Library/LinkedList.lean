import Mathlib.Logic.Function.Basic
import Mathlib.Data.List.Nodup

/-!
# Singly linked lists in memory

Cells on a heap, each with the address of the next one or null, and what it means that an
address is the head of a list of cells. A list does not repeat a cell, and depends on the
links of its own cells only; so a cell may be put in front, taken out behind its predecessor,
or freed once it is out.

Nothing here knows what the cells hold.
-/

namespace LinkedList

universe u

/-- A cell of a list, with its contents. -/
structure Cell (Data : Type u) where
  data : Data
  next : Option Nat
  deriving DecidableEq, Repr

/-- The cells that are allocated. -/
abbrev Heap (Data : Type u) := Nat → Option (Cell Data)

/-- The link of each allocated cell. -/
abbrev Links := Nat → Option (Option Nat)

variable {Data : Type u}

namespace Heap

/-- No cell is allocated. -/
def empty : Heap Data := fun _ => none

/-- The links of the cells. -/
def links (heap : Heap Data) : Links := fun address => (heap address).map Cell.next

/-- The contents of the cells. -/
def contents (heap : Heap Data) : Nat → Option Data := fun address =>
  (heap address).map Cell.data

/-- The cell at the address, allocated or overwritten. -/
def store (heap : Heap Data) (address : Nat) (cell : Cell Data) : Heap Data :=
  Function.update heap address (some cell)

/-- The cell at the address is given back. -/
def free (heap : Heap Data) (address : Nat) : Heap Data := Function.update heap address none

@[simp] theorem store_self (heap : Heap Data) (address : Nat) (cell : Cell Data) :
    heap.store address cell address = some cell := Function.update_self ..

theorem store_of_ne (heap : Heap Data) {address other : Nat} (apart : other ≠ address)
    (cell : Cell Data) : heap.store address cell other = heap other :=
  Function.update_of_ne apart ..

@[simp] theorem free_self (heap : Heap Data) (address : Nat) : heap.free address address = none :=
  Function.update_self ..

theorem free_of_ne (heap : Heap Data) {address other : Nat} (apart : other ≠ address) :
    heap.free address other = heap other := Function.update_of_ne apart ..

theorem links_store (heap : Heap Data) (address : Nat) (cell : Cell Data) :
    (heap.store address cell).links = Function.update heap.links address (some cell.next) := by
  funext other
  by_cases same : other = address
  · subst same
    rw [links, store_self, Function.update_self]
    rfl
  · rw [Function.update_of_ne same, links, store_of_ne heap same]
    rfl

theorem links_free (heap : Heap Data) (address : Nat) :
    (heap.free address).links = Function.update heap.links address none := by
  funext other
  by_cases same : other = address
  · subst same
    rw [links, free_self, Function.update_self]
    rfl
  · rw [Function.update_of_ne same, links, free_of_ne heap same]
    rfl

theorem contents_of_cell {heap : Heap Data} {address : Nat} {cell : Cell Data}
    (allocated : heap address = some cell) : heap.contents address = some cell.data := by
  rw [contents, allocated]
  rfl

@[simp] theorem contents_eq_none_iff (heap : Heap Data) (address : Nat) :
    heap.contents address = none ↔ heap address = none := Option.map_eq_none_iff

@[simp] theorem links_eq_none_iff (heap : Heap Data) (address : Nat) :
    heap.links address = none ↔ heap address = none := Option.map_eq_none_iff

/-- The cell with a link. -/
theorem exists_cell {heap : Heap Data} {address : Nat} {next : Option Nat}
    (link : heap.links address = some next) : ∃ data, heap address = some ⟨data, next⟩ := by
  cases allocated : heap address with
  | none => simp [links, allocated] at link
  | some cell =>
      obtain ⟨data, other⟩ := cell
      obtain rfl : other = next := by simpa [links, allocated] using link
      exact ⟨data, rfl⟩

theorem contents_store (heap : Heap Data) (address : Nat) (cell : Cell Data) :
    (heap.store address cell).contents =
      Function.update heap.contents address (some cell.data) := by
  funext other
  by_cases same : other = address
  · subst same
    rw [contents, store_self, Function.update_self]
    rfl
  · rw [Function.update_of_ne same, contents, store_of_ne heap same]
    rfl

theorem contents_free (heap : Heap Data) (address : Nat) :
    (heap.free address).contents = Function.update heap.contents address none := by
  funext other
  by_cases same : other = address
  · subst same
    rw [contents, free_self, Function.update_self]
    rfl
  · rw [Function.update_of_ne same, contents, free_of_ne heap same]
    rfl

/-- A new link leaves the contents as they are. -/
theorem contents_store_next (heap : Heap Data) {address : Nat} {cell : Cell Data}
    (allocated : heap address = some cell) (next : Option Nat) :
    (heap.store address ⟨cell.data, next⟩).contents = heap.contents := by
  rw [contents_store]
  refine Function.update_eq_iff.mpr ⟨?_, fun _ _ => rfl⟩
  rw [contents, allocated]
  rfl

/-- New contents leave the links as they are. -/
theorem links_store_data (heap : Heap Data) {address : Nat} {cell : Cell Data}
    (allocated : heap address = some cell) (data : Data) :
    (heap.store address ⟨data, cell.next⟩).links = heap.links := by
  rw [links_store]
  refine Function.update_eq_iff.mpr ⟨?_, fun _ _ => rfl⟩
  rw [links, allocated]
  rfl

end Heap

/-- The cells at these addresses, in this order, are the list that starts at the head. -/
def IsList (links : Links) : Option Nat → List Nat → Prop
  | head, [] => head = none
  | head, address :: rest =>
      head = some address ∧ ∃ next, links address = some next ∧ IsList links next rest

namespace IsList

variable {links other : Links} {head : Option Nat} {addresses rest : List Nat} {address : Nat}

theorem head_eq (isList : IsList links head addresses) : head = addresses.head? := by
  cases addresses with
  | nil => exact isList
  | cons address rest => exact isList.1

/-- A head is the head of one list only. -/
theorem unique {second : List Nat} (isList : IsList links head addresses)
    (isSecond : IsList links head second) : addresses = second := by
  induction addresses generalizing head second with
  | nil =>
      cases second with
      | nil => rfl
      | cons address rest => cases isList.symm.trans isSecond.1
  | cons address rest ih =>
      obtain ⟨rfl, next, link, tail⟩ := isList
      cases second with
      | nil => cases isSecond
      | cons otherAddress otherRest =>
          obtain ⟨same, otherNext, otherLink, otherTail⟩ := isSecond
          obtain rfl := Option.some.inj same
          obtain rfl := Option.some.inj (link.symm.trans otherLink)
          rw [ih tail otherTail]

/-- From any cell of a list on it is a list. -/
theorem from_cell {before : List Nat} (isList : IsList links head (before ++ address :: rest)) :
    IsList links (some address) (address :: rest) := by
  induction before generalizing head with
  | nil => exact ⟨rfl, isList.2⟩
  | cons first before ih =>
      obtain ⟨-, next, -, tail⟩ := isList
      exact ih tail

/-- The link of a cell of the list. -/
theorem link {before : List Nat} (isList : IsList links head (before ++ address :: rest)) :
    links address = some rest.head? := by
  obtain ⟨-, next, link, tail⟩ := isList.from_cell
  rw [link, tail.head_eq]

/-- A cell of a list is allocated. -/
theorem allocated (isList : IsList links head addresses) (member : address ∈ addresses) :
    links address ≠ none := by
  obtain ⟨before, rest, rfl⟩ := List.append_of_mem member
  rw [isList.link]
  exact Option.some_ne_none _

/-- A cell of a list has contents. -/
theorem exists_contents {heap : Heap Data} (isList : IsList heap.links head addresses)
    (member : address ∈ addresses) : ∃ data, heap.contents address = some data := by
  have allocated := isList.allocated member
  rw [Ne, Heap.links_eq_none_iff, ← Heap.contents_eq_none_iff] at allocated
  exact Option.ne_none_iff_exists'.mp allocated

/-- No cell comes twice: a list that came back to a cell would not end. -/
theorem nodup (isList : IsList links head addresses) : addresses.Nodup := by
  induction addresses generalizing head with
  | nil => exact List.nodup_nil
  | cons address rest ih =>
      obtain ⟨rfl, next, link, tail⟩ := isList
      refine List.nodup_cons.mpr ⟨fun again => ?_, ih tail⟩
      obtain ⟨before, after, rfl⟩ := List.append_of_mem again
      have whole : IsList links (some address) (address :: (before ++ address :: after)) :=
        ⟨rfl, next, link, tail⟩
      have shorter := whole.unique tail.from_cell
      have lengths := congrArg List.length shorter
      simp only [List.length_cons, List.length_append] at lengths
      omega

/-- A cell is not among the others. -/
theorem outside {before : List Nat} (isList : IsList links head (before ++ address :: rest)) :
    address ∉ before ++ rest := by
  have distinct := isList.nodup
  rw [List.nodup_middle] at distinct
  exact (List.nodup_cons.mp distinct).1

/-- A list depends on the links of its own cells only. -/
theorem congr (isList : IsList links head addresses)
    (same : ∀ address ∈ addresses, other address = links address) :
    IsList other head addresses := by
  induction addresses generalizing head with
  | nil => exact isList
  | cons address rest ih =>
      obtain ⟨rfl, next, link, tail⟩ := isList
      exact ⟨rfl, next, (same address List.mem_cons_self).trans link,
        ih tail fun later member => same later (List.mem_cons_of_mem _ member)⟩

/-- What happens outside the list leaves it alone. -/
theorem update (isList : IsList links head addresses) (outside : address ∉ addresses)
    (link : Option (Option Nat)) : IsList (Function.update links address link) head addresses :=
  isList.congr fun _ member => Function.update_of_ne (ne_of_mem_of_not_mem member outside) ..

/-- A cell put in front. -/
theorem push (isList : IsList links head addresses) (outside : address ∉ addresses) :
    IsList (Function.update links address (some head)) (some address) (address :: addresses) :=
  ⟨rfl, head, Function.update_self .., isList.update outside _⟩

/-- The list behind its first cell. -/
theorem tail (isList : IsList links head (address :: rest)) : IsList links rest.head? rest := by
  obtain ⟨-, next, -, tail⟩ := isList
  exact tail.head_eq ▸ tail

/-- A cell taken out: its predecessor is linked to its successor. -/
theorem unlink {before : List Nat} {previous : Nat}
    (isList : IsList links head (before ++ [previous] ++ address :: rest)) :
    IsList (Function.update links previous (some rest.head?)) head
      (before ++ [previous] ++ rest) := by
  induction before generalizing head with
  | nil =>
      have distinct := isList.nodup
      obtain ⟨start, next, -, tail⟩ := isList
      have outside : previous ∉ rest := fun member =>
        (List.nodup_cons.mp distinct).1 (List.mem_cons_of_mem _ member)
      exact ⟨start, rest.head?, Function.update_self .., tail.tail.update outside _⟩
  | cons first before ih =>
      have distinct := isList.nodup
      obtain ⟨start, next, link, tail⟩ := isList
      have apart : first ≠ previous := fun same =>
        (List.nodup_cons.mp distinct).1 (by simp [same])
      exact ⟨start, next, (Function.update_of_ne apart ..).trans link, ih tail⟩

end IsList

end LinkedList
