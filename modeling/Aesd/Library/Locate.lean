import Mathlib.Algebra.BigOperators.Group.List.Basic
import Mathlib.Data.UInt
import Mathlib.Tactic.Common

/-!
# Positions in a concatenation

Data kept as a list of segments is addressed by a position in the concatenation
of the segments. `locate` resolves a position to a segment and an offset into
it, over natural numbers. `scan` is the same search as a machine does it, with
a running total and a running offset in wrapping 64-bit arithmetic; it agrees
with `locate` as long as the total does not wrap.
-/

namespace Locate

universe u

/-- The segment holding a position, and the offset into it. -/
def locate : List Nat → Nat → Option (Nat × Nat)
  | [], _ => none
  | size :: sizes, position =>
      if position < size then some (0, position)
      else (locate sizes (position - size)).map fun found => (found.1 + 1, found.2)

/-- Positions from the total size on are in no segment. -/
theorem locate_eq_none_iff (sizes : List Nat) (position : Nat) :
    locate sizes position = none ↔ sizes.sum ≤ position := by
  induction sizes generalizing position with
  | nil => simp [locate]
  | cons size sizes ih =>
      simp only [locate, List.sum_cons]
      split
      next inside => simp; omega
      next outside => rw [Option.map_eq_none_iff, ih]; omega

/-- A located position is the sum of the earlier segments and the offset. -/
theorem locate_eq_some_iff (sizes : List Nat) (position segment offset : Nat) :
    locate sizes position = some (segment, offset) ↔
      ∃ size, sizes[segment]? = some size ∧ offset < size ∧
        position = (sizes.take segment).sum + offset := by
  induction sizes generalizing position segment with
  | nil => simp [locate]
  | cons size sizes ih =>
      simp only [locate]
      split
      next inside =>
        cases segment with
        | zero => simp; omega
        | succ segment =>
            simp only [Option.some.injEq, Prod.mk.injEq, List.getElem?_cons_succ,
              List.take_succ_cons, List.sum_cons]
            constructor
            · rintro ⟨impossible, -⟩
              omega
            · rintro ⟨other, -, -, sum⟩
              omega
      next outside =>
        cases segment with
        | zero =>
            simp only [Option.map_eq_some_iff, Prod.mk.injEq, List.getElem?_cons_zero,
              List.take_zero, List.sum_nil, Option.some.injEq]
            constructor
            · rintro ⟨found, -, impossible, -⟩
              omega
            · rintro ⟨other, rfl, lt, sum⟩
              omega
        | succ segment =>
            rw [Option.map_eq_some_iff]
            constructor
            · rintro ⟨⟨below, rest⟩, found, same⟩
              obtain ⟨rfl, rfl⟩ : below = segment ∧ rest = offset := by
                simpa using same
              obtain ⟨other, selected, lt, sum⟩ := (ih _ _).mp found
              exact ⟨other, by simpa using selected, lt, by
                rw [List.take_succ_cons, List.sum_cons]; omega⟩
            · rintro ⟨other, selected, lt, sum⟩
              rw [List.take_succ_cons, List.sum_cons] at sum
              exact ⟨(segment, offset), (ih _ _).mpr
                ⟨other, by simpa using selected, lt, by omega⟩, rfl⟩

theorem sum_take_succ (sizes : List Nat) (segment : Nat) :
    (sizes.take (segment + 1)).sum = (sizes.take segment).sum + sizes[segment]?.getD 0 := by
  rw [List.take_add_one, List.sum_append]
  cases sizes[segment]? <;> simp

/-- The position is in the range of the segment. -/
def InSegment (sizes : List Nat) (position segment : Nat) : Prop :=
  (sizes.take segment).sum ≤ position ∧ position < (sizes.take (segment + 1)).sum

/-- The search finds the segment whose range has the position. -/
theorem inSegment_iff (sizes : List Nat) (position segment : Nat) :
    InSegment sizes position segment ↔
      locate sizes position = some (segment, position - (sizes.take segment).sum) := by
  rw [locate_eq_some_iff, InSegment, sum_take_succ]
  cases selected : sizes[segment]? with
  | none => simp
  | some size =>
      simp only [Option.getD_some, Option.some.injEq, exists_eq_left']
      omega

/-- Every position before the end is in the range of exactly one segment. -/
theorem existsUnique_inSegment {sizes : List Nat} {position : Nat}
    (inside : position < sizes.sum) : ∃! segment, InSegment sizes position segment := by
  obtain ⟨⟨segment, offset⟩, located⟩ : ∃ found, locate sizes position = some found :=
    Option.ne_none_iff_exists'.mp fun missing => by
      have outside := (locate_eq_none_iff sizes position).mp missing
      omega
  obtain ⟨size, -, -, sum⟩ := (locate_eq_some_iff ..).mp located
  refine ⟨segment, (inSegment_iff ..).mpr ?_, fun other inOther => ?_⟩
  · rw [located, sum, Nat.add_sub_cancel_left]
  · have found := (inSegment_iff ..).mp inOther
    rw [located] at found
    exact (Prod.mk.inj (Option.some.inj found)).1.symm

theorem sum_take_mono (sizes : List Nat) {earlier later : Nat} (le : earlier ≤ later) :
    (sizes.take earlier).sum ≤ (sizes.take later).sum := by
  induction later, le using Nat.le_induction with
  | base => exact le_rfl
  | succ later _ ih =>
      rw [sum_take_succ]
      exact ih.trans (Nat.le_add_right _ _)

/-- The segments a position is behind are those before the one it is in. -/
theorem sum_take_le_iff {sizes : List Nat} {position segment offset : Nat}
    (located : locate sizes position = some (segment, offset)) (count : Nat) :
    (sizes.take count).sum ≤ position ↔ count ≤ segment := by
  obtain ⟨size, selected, inside, isPosition⟩ := (locate_eq_some_iff ..).mp located
  constructor
  · intro behind
    by_contra beyond
    have more := sum_take_mono sizes (Nat.lt_of_not_le beyond)
    rw [sum_take_succ, selected, Option.getD_some] at more
    omega
  · intro before
    have less := sum_take_mono sizes before
    omega

/-- Segments appended after the last position do not change the search. -/
theorem locate_append_replicate_zero (sizes : List Nat) (count position : Nat) :
    locate (sizes ++ List.replicate count 0) position = locate sizes position := by
  induction sizes generalizing position with
  | nil =>
      rw [List.nil_append, (locate_eq_none_iff _ _).mpr (by simp)]
      rfl
  | cons size sizes ih => simp only [List.cons_append, locate, ih]

/-- What the concatenation holds from a located position on: the rest of the
segment, then the later segments. -/
theorem drop_flatten_of_locate {α : Type u} (segments : List (List α))
    {position segment offset : Nat} {content : List α}
    (located : locate (segments.map List.length) position = some (segment, offset))
    (selected : segments[segment]? = some content) :
    segments.flatten.drop position =
      content.drop offset ++ (segments.drop (segment + 1)).flatten := by
  induction segments generalizing position segment with
  | nil => simp at selected
  | cons first segments ih =>
      simp only [List.map_cons, locate] at located
      split at located
      next inside =>
        obtain ⟨rfl, rfl⟩ : 0 = segment ∧ position = offset := by simpa using located
        obtain rfl : first = content := by simpa using selected
        rw [List.flatten_cons, List.drop_append_of_le_length (by omega)]
        rfl
      next outside =>
        obtain ⟨⟨below, rest⟩, found, same⟩ := Option.map_eq_some_iff.mp located
        obtain ⟨rfl, rfl⟩ : below + 1 = segment ∧ rest = offset := by simpa using same
        rw [List.flatten_cons, List.drop_append, List.drop_eq_nil_of_le (by omega),
          List.nil_append, List.drop_succ_cons]
        exact ih found (by simpa using selected)

/-- The value a located position has in the concatenation. -/
theorem getElem?_flatten_of_locate {α : Type u} {segments : List (List α)}
    {position segment offset : Nat} {content : List α}
    (located : locate (segments.map List.length) position = some (segment, offset))
    (selected : segments[segment]? = some content) :
    segments.flatten[position]? = content[offset]? := by
  obtain ⟨size, sized, inside, -⟩ := (locate_eq_some_iff ..).mp located
  obtain rfl : content.length = size := by simpa [selected] using sized
  have rest := drop_flatten_of_locate segments located selected
  have first : (segments.flatten.drop position)[0]? =
      (content.drop offset ++ (segments.drop (segment + 1)).flatten)[0]? := by rw [rest]
  have nonempty : 0 < (content.drop offset).length := by rw [List.length_drop]; omega
  rwa [List.getElem?_append_left nonempty, List.getElem?_drop, List.getElem?_drop, Nat.add_zero,
    Nat.add_zero] at first

/-! ## The search in machine arithmetic -/

/-- One pass over the sizes with a running total and a running offset, both
modulo `2 ^ 64`. -/
def scan (position : UInt64) : List UInt64 → UInt64 → UInt64 → Option (Nat × UInt64)
  | [], _, _ => none
  | size :: sizes, total, offset =>
      if position < total + size then some (0, offset)
      else (scan position sizes (total + size) (offset - size)).map fun found =>
        (found.1 + 1, found.2)

/-- The pass stops at the first segment whose running total exceeds the
position. -/
theorem scan_eq_some_iff (position : UInt64) (sizes : List UInt64) (total offset : UInt64)
    (segment : Nat) (rest : UInt64) :
    scan position sizes total offset = some (segment, rest) ↔
      segment < sizes.length ∧
        (∀ earlier < segment, ¬position < total + (sizes.take (earlier + 1)).sum) ∧
        position < total + (sizes.take (segment + 1)).sum ∧
        rest = offset - (sizes.take segment).sum := by
  induction sizes generalizing total offset segment with
  | nil => simp [scan]
  | cons size sizes ih =>
      simp only [scan]
      split
      next inside =>
        cases segment with
        | zero => simp [inside, eq_comm]
        | succ segment =>
            simp only [Option.some.injEq, Prod.mk.injEq]
            constructor
            · rintro ⟨impossible, -⟩
              omega
            · rintro ⟨-, earlier, -⟩
              exact absurd inside (by simpa using earlier 0 (Nat.succ_pos _))
      next outside =>
        cases segment with
        | zero =>
            simp only [Option.map_eq_some_iff, Prod.mk.injEq]
            constructor
            · rintro ⟨found, -, impossible, -⟩
              omega
            · rintro ⟨-, -, inside, -⟩
              exact absurd (by simpa using inside) outside
        | succ segment =>
            have step : (scan position sizes (total + size) (offset - size)).map
                  (fun found => (found.1 + 1, found.2)) = some (segment + 1, rest) ↔
                scan position sizes (total + size) (offset - size) = some (segment, rest) := by
              rw [Option.map_eq_some_iff]
              constructor
              · rintro ⟨⟨below, other⟩, found, same⟩
                obtain ⟨rfl, rfl⟩ : below = segment ∧ other = rest := by simpa using same
                exact found
              · intro found
                exact ⟨_, found, rfl⟩
            rw [step, ih]
            simp only [List.length_cons, List.take_succ_cons, List.sum_cons,
              Nat.add_lt_add_iff_right, UInt64.add_assoc]
            constructor
            · rintro ⟨bound, earlier, inside, rfl⟩
              refine ⟨bound, fun index below => ?_, inside, by grind⟩
              cases index with
              | zero => simpa using outside
              | succ index => simpa using earlier index (by omega)
            · rintro ⟨bound, earlier, inside, rfl⟩
              exact ⟨bound, fun index below => by
                simpa using earlier (index + 1) (by omega), inside, by grind⟩

private theorem scan_eq_locate_aux (position : UInt64) (sizes : List UInt64) (total : UInt64)
    (passed : total.toNat ≤ position.toNat)
    (noWrap : total.toNat + (sizes.map UInt64.toNat).sum < 2 ^ 64) :
    scan position sizes total (position - total) =
      (locate (sizes.map UInt64.toNat) (position.toNat - total.toNat)).map fun found =>
        (found.1, .ofNat found.2) := by
  induction sizes generalizing total with
  | nil => rfl
  | cons size sizes ih =>
      simp only [List.map_cons, List.sum_cons] at noWrap
      have added : (total + size).toNat = total.toNat + size.toNat := by
        rw [UInt64.toNat_add]; omega
      have inside : position < total + size ↔
          position.toNat - total.toNat < size.toNat := by
        rw [UInt64.lt_iff_toNat_lt, added]; omega
      simp only [scan, List.map_cons, locate, inside]
      split
      next =>
        have difference : position - total = .ofNat (position.toNat - total.toNat) := by
          apply UInt64.toNat_inj.mp
          have bound := position.toNat_lt
          rw [UInt64.toNat_sub, UInt64.toNat_ofNat']
          omega
        simp [difference]
      next outside =>
        rw [show position - total - size = position - (total + size) by grind,
          ih (total + size) (by omega) (by omega), added, Nat.sub_add_eq]
        simp [Option.map_map, Function.comp_def]

/-- Without wraparound the machine search finds what `locate` finds. -/
theorem scan_eq_locate (position : UInt64) (sizes : List UInt64)
    (noWrap : (sizes.map UInt64.toNat).sum < 2 ^ 64) :
    scan position sizes 0 position =
      (locate (sizes.map UInt64.toNat) position.toNat).map fun found =>
        (found.1, .ofNat found.2) := by
  simpa using scan_eq_locate_aux position sizes 0 (by simp) (by simpa using noWrap)

end Locate
