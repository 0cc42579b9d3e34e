import Mathlib.Algebra.BigOperators.Group.List.Basic
import Mathlib.Algebra.Order.BigOperators.Group.List
import Mathlib.Algebra.Order.Ring.Nat

/-!
# Numbered parties

The parties of a system are kept in a list, each under its number. A new party is put at the
end, and a party that goes on replaces itself. This module has what a step of one party
leaves true of the others.

Nothing here knows what the parties are.
-/

namespace Parties

universe u

variable {Party : Type u} {predicate : Nat → Party → Prop} {parties : List Party}

/-- The predicate holds of every party under its number. -/
def Each (predicate : Nat → Party → Prop) (parties : List Party) : Prop :=
  ∀ number party, parties[number]? = some party → predicate number party

theorem lt_of_selected {number : Nat} {party : Party}
    (selected : parties[number]? = some party) : number < parties.length :=
  (List.getElem?_eq_some_iff.mp selected).1

theorem Each.nil : Each predicate [] := fun _ _ selected => by simp at selected

/-- A new party comes after all others. -/
theorem selected_join {number : Nat} {newcomer party : Party}
    (selected : (parties ++ [newcomer])[number]? = some party) :
    parties[number]? = some party ∨ number = parties.length ∧ party = newcomer := by
  by_cases inside : number < parties.length
  · rw [List.getElem?_append_left inside] at selected
    exact .inl selected
  · have bound := lt_of_selected selected
    rw [List.length_append, List.length_singleton] at bound
    obtain rfl : number = parties.length := by omega
    rw [List.getElem?_append_right (Nat.le_refl _), Nat.sub_self] at selected
    exact .inr ⟨rfl, (Option.some.inj selected).symm⟩

theorem Each.join {newcomer : Party} (each : Each predicate parties)
    (joins : predicate parties.length newcomer) : Each predicate (parties ++ [newcomer]) := by
  intro number party selected
  rcases selected_join selected with earlier | ⟨rfl, rfl⟩
  · exact each number party earlier
  · exact joins

/-- When one party goes on, the others stay as they are. -/
theorem selected_set {moving number : Nat} {next party : Party}
    (selected : (parties.set moving next)[number]? = some party) :
    number = moving ∧ party = next ∨ number ≠ moving ∧ parties[number]? = some party := by
  have bound := lt_of_selected selected
  rw [List.length_set] at bound
  by_cases same : number = moving
  · subst same
    rw [List.getElem?_set_self bound] at selected
    exact .inl ⟨rfl, (Option.some.inj selected).symm⟩
  · rw [List.getElem?_set_ne (Ne.symm same)] at selected
    exact .inr ⟨same, selected⟩

/-- A party that goes on to where it is changes nothing. -/
theorem set_selected {number : Nat} {party : Party} (selected : parties[number]? = some party) :
    parties.set number party = parties := by
  obtain ⟨inside, rfl⟩ := List.getElem?_eq_some_iff.mp selected
  exact List.set_getElem_self inside

/-- A party that goes on to somewhere else changes something. -/
theorem set_ne {number : Nat} {party next : Party} (selected : parties[number]? = some party)
    (other : next ≠ party) : parties.set number next ≠ parties := by
  intro same
  have moved : parties[number]? = some next := by
    conv_lhs => rw [← same]
    exact List.getElem?_set_self (lt_of_selected selected)
  exact other (Option.some.inj (moved.symm.trans selected))

/-- The rule for one party that goes on: the predicate holds of it afterwards, and is not lost
by the others. -/
theorem Each.set {moving : Nat} {next : Party}
    (others : ∀ number party, number ≠ moving → parties[number]? = some party →
      predicate number party)
    (moves : predicate moving next) : Each predicate (parties.set moving next) := by
  intro number party selected
  rcases selected_set selected with ⟨rfl, rfl⟩ | ⟨apart, earlier⟩
  · exact moves
  · exact others number party apart earlier

/-- The whole weighs no more than so many of the heaviest party. -/
theorem sum_le (weight : Party → Nat) (most : Nat) (light : ∀ party, weight party ≤ most)
    (parties : List Party) : (parties.map weight).sum ≤ most * parties.length := by
  have each := List.sum_le_card_nsmul (parties.map weight) most (by
    intro count member
    obtain ⟨party, -, rfl⟩ := List.mem_map.mp member
    exact light party)
  rwa [List.length_map, Nat.nsmul_eq_mul, Nat.mul_comm] at each

/-- A party that gets lighter makes the whole lighter. -/
theorem sum_set_lt (weight : Party → Nat) {moving : Nat} {party next : Party}
    (selected : parties[moving]? = some party) (lighter : weight next < weight party) :
    ((parties.set moving next).map weight).sum < (parties.map weight).sum := by
  induction parties generalizing moving with
  | nil => simp at selected
  | cons first parties ih =>
      cases moving with
      | zero =>
          obtain rfl := Option.some.inj selected
          simp only [List.set_cons_zero, List.map_cons, List.sum_cons]
          omega
      | succ moving =>
          have rest := ih selected
          simp only [List.set_cons_succ, List.map_cons, List.sum_cons]
          omega

end Parties
