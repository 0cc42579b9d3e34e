import Mathlib.Data.List.TakeWhile
import Mathlib.Tactic.Common

/-!
# Splitting at a separator

A list either lacks a separator or is a line, the separator and a rest. These
lemmas say what the searches of the list library find in the two cases, and where
the first separator of a list of chunks is.
-/

namespace Lines

universe u

variable {α : Type u} [DecidableEq α] {separator : α}

theorem findIdx?_of_notMem {values : List α} (missing : separator ∉ values) :
    values.findIdx? (· = separator) = none := by
  rw [List.findIdx?_eq_none_iff]
  exact fun value member => decide_eq_false fun same => missing (same ▸ member)

/-- The first separator is where the line ends. -/
theorem findIdx?_line {line : List α} (missing : separator ∉ line) (rest : List α) :
    (line ++ separator :: rest).findIdx? (· = separator) = some line.length := by
  rw [List.findIdx?_append, findIdx?_of_notMem missing]
  simp [List.findIdx?_cons]

theorem takeWhile_line {line : List α} (missing : separator ∉ line) (rest : List α) :
    (line ++ separator :: rest).takeWhile (· ≠ separator) = line := by
  rw [List.takeWhile_append_of_pos, List.takeWhile_cons_of_neg (by simp), List.append_nil]
  exact fun value member => decide_eq_true fun same => missing (same ▸ member)

omit [DecidableEq α] in
/-- What starts a terminated line and lacks the separator starts the line. -/
theorem prefix_line_iff {pattern : List α} (missing : separator ∉ pattern) (line rest : List α) :
    pattern <+: line ++ separator :: rest ↔ pattern <+: line := by
  refine ⟨fun starts => ?_, fun starts => starts.trans (List.prefix_append _ _)⟩
  rcases List.prefix_or_prefix_of_prefix starts (List.prefix_append line (separator :: rest)) with
    inside | ⟨beyond, rfl⟩
  · exact inside
  · cases beyond with
    | nil => simp
    | cons first beyond =>
        have next := (List.prefix_append_right_inj line).mp starts
        obtain ⟨rfl, -⟩ := List.cons_prefix_cons.mp next
        exact absurd (by simp) missing

omit [DecidableEq α] in
/-- A list whose only separator can be the last element. -/
theorem unfinished_or_line {values : List α} (lines : separator ∉ values.dropLast) :
    separator ∉ values ∨ ∃ line, values = line ++ [separator] ∧ separator ∉ line := by
  rcases List.eq_nil_or_concat values with empty | ⟨line, last, isLine⟩
  case inl => exact .inl (by simp [empty])
  case inr =>
    rw [List.concat_eq_append] at isLine
    rw [isLine, List.dropLast_concat] at lines
    by_cases same : last = separator
    case pos => exact .inr ⟨line, same ▸ isLine, lines⟩
    case neg => exact .inl (by simp [isLine, lines, Ne.symm same])

/-- The first separator of a stream that comes in chunks. -/
theorem exists_first_chunk {chunks : List (List α)} (present : separator ∈ chunks.flatten) :
    ∃ before line rest later, chunks = before ++ (line ++ separator :: rest) :: later ∧
      (∀ chunk ∈ before, separator ∉ chunk) ∧ separator ∉ line := by
  induction chunks with
  | nil => simp at present
  | cons chunk chunks ih =>
      by_cases here : separator ∈ chunk
      · obtain ⟨line, rest, rfl, missing⟩ := List.eq_append_cons_of_mem here
        exact ⟨[], line, rest, chunks, rfl, by simp, missing⟩
      · obtain ⟨before, line, rest, later, rfl, clear, missing⟩ := ih (by
          simpa [here] using present)
        exact ⟨chunk :: before, line, rest, later, rfl, by simpa [here] using clear, missing⟩

/-- The chunks before the first separator. -/
theorem takeWhile_chunks {before : List (List α)} {line : List α}
    (clear : ∀ chunk ∈ before, separator ∉ chunk) (rest : List α) (later : List (List α)) :
    (before ++ (line ++ separator :: rest) :: later).takeWhile (separator ∉ ·) = before := by
  rw [List.takeWhile_append_of_pos (by simpa using clear),
    List.takeWhile_cons_of_neg (by simp), List.append_nil]

omit [DecidableEq α] in
theorem length_flatten_le {chunks : List (List α)} {bound : Nat}
    (small : ∀ chunk ∈ chunks, chunk.length ≤ bound) :
    chunks.flatten.length ≤ bound * chunks.length := by
  induction chunks with
  | nil => simp
  | cons chunk chunks ih =>
      have first := small chunk List.mem_cons_self
      have others := ih fun other member => small other (List.mem_cons_of_mem _ member)
      rw [List.flatten_cons, List.length_append, List.length_cons, Nat.mul_succ]
      omega

omit [DecidableEq α] in
/-- Chunks that in total are as long as allowed are as long as allowed each. -/
theorem length_flatten_eq_iff {chunks : List (List α)} {bound : Nat}
    (small : ∀ chunk ∈ chunks, chunk.length ≤ bound) :
    chunks.flatten.length = bound * chunks.length ↔
      ∀ chunk ∈ chunks, chunk.length = bound := by
  induction chunks with
  | nil => simp
  | cons chunk chunks ih =>
      have first := small chunk List.mem_cons_self
      have others := fun other member => small other (List.mem_cons_of_mem chunk member)
      have rest := length_flatten_le others
      rw [List.flatten_cons, List.length_append, List.length_cons, Nat.mul_succ,
        List.forall_mem_cons, ← ih others]
      omega

end Lines
