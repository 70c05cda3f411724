/-
This file compares numbers with a symbolic penalty up to a tolerance.

One number is less than another by its penalty when the penalties differ by more than the tolerance,
and by its value when they are near. Nearness is not transitive, so neither is the comparison in
general. It is among numbers whose penalties lie in layers: those near to one of them are near to
each other. Without tolerance all numbers do.
-/

import Mathlib
import LinearProgramming.Proofs.BigM.Order

namespace LinearProgramming

theorem Scalar.abs_eq (number : Rat) : Scalar.abs number = |number| := by
  show (if number < 0 then -number else number) = |number|
  split
  · rename_i negative
    exact (abs_of_neg negative).symm
  · rename_i nonneg
    exact (abs_of_nonneg (not_lt.1 nonneg)).symm

namespace BigM

variable {tolerance : Rat} {left middle right : BigM Rat}

/-! ### Near penalties -/

/-- Two penalties are equal up to a tolerance. -/
def Near (tolerance : Rat) (left right : BigM Rat) : Prop :=
  |left.penalty - right.penalty| ≤ tolerance

instance : Decidable (Near tolerance left right) :=
  inferInstanceAs (Decidable (|left.penalty - right.penalty| ≤ tolerance))

theorem Near.symm (near : Near tolerance left right) : Near tolerance right left :=
  (abs_sub_comm _ _).trans_le near

/-- Less by more than the tolerance in the penalty, or in the value at a near penalty. -/
theorem lessWithin_iff (nonneg : 0 ≤ tolerance) : lessWithin tolerance left right = true ↔
    left.penalty + tolerance < right.penalty ∨
      Near tolerance left right ∧ left.value + tolerance < right.value := by
  unfold lessWithin Near
  rw [Scalar.abs_eq]
  by_cases apart : tolerance < |left.penalty - right.penalty|
  · rw [if_pos apart, decide_eq_true_iff, or_iff_left fun less => not_le.2 apart less.1]
    constructor
    · intro below
      rw [abs_of_neg (sub_neg.2 below)] at apart
      linarith
    · intro below
      linarith
  · have close := abs_le.1 (not_lt.1 apart)
    rw [if_neg apart, decide_eq_true_iff, lt_sub_iff_add_lt,
      or_iff_right fun below => by linarith, and_iff_right (not_lt.1 apart)]

theorem lessWithin_irrefl (nonneg : 0 ≤ tolerance) (number : BigM Rat) :
    lessWithin tolerance number number = false := by
  rw [← Bool.not_eq_true, lessWithin_iff nonneg]
  rintro (below | ⟨_, below⟩) <;> linarith

/-- A number is negative when it is less than zero. -/
theorem isNegativeWithin_eq_lessWithin (nonneg : 0 ≤ tolerance) (number : BigM Rat) :
    number.isNegativeWithin tolerance = lessWithin tolerance number 0 := by
  rw [Bool.eq_iff_iff, lessWithin_iff nonneg]
  unfold isNegativeWithin Near
  rw [Scalar.abs_eq, penalty_zero, value_zero, sub_zero]
  by_cases near : |number.penalty| ≤ tolerance
  · have close := abs_le.1 near
    rw [if_pos near, decide_eq_true_iff, lt_neg_iff_add_neg,
      or_iff_right fun below => by linarith, and_iff_right near]
  · rw [if_neg near, decide_eq_true_iff, lt_neg_iff_add_neg,
      or_iff_left fun less => near less.1]

/-- Among some numbers, those near to one number are near to each other: the penalties lie in
layers. -/
def Layered (tolerance : Rat) (numbers : List (BigM Rat)) : Prop :=
  ∀ left ∈ numbers, ∀ middle ∈ numbers, ∀ right ∈ numbers,
    Near tolerance left middle → Near tolerance middle right → Near tolerance left right

instance (numbers : List (BigM Rat)) : Decidable (Layered tolerance numbers) :=
  inferInstanceAs (Decidable (∀ left ∈ numbers, ∀ middle ∈ numbers, ∀ right ∈ numbers,
    Near tolerance left middle → Near tolerance middle right → Near tolerance left right))

/-- Without tolerance only equal penalties are near. -/
theorem layered_zero (numbers : List (BigM Rat)) : Layered 0 numbers := by
  intro left _ middle _ right _ near next
  unfold Near at near next ⊢
  rw [abs_nonpos_iff, sub_eq_zero] at near next ⊢
  exact near.trans next

namespace Layered

variable {numbers : List (BigM Rat)} (layered : Layered tolerance numbers)

include layered

theorem mono {fewer : List (BigM Rat)} (within : fewer ⊆ numbers) : Layered tolerance fewer :=
  fun left leftIn middle middleIn right rightIn =>
    layered left (within leftIn) middle (within middleIn) right (within rightIn)

/-- Among layered numbers the comparison is transitive. -/
theorem lessWithin_trans (nonneg : 0 ≤ tolerance) (leftIn : left ∈ numbers)
    (middleIn : middle ∈ numbers) (rightIn : right ∈ numbers)
    (first : lessWithin tolerance left middle = true)
    (second : lessWithin tolerance middle right = true) :
    lessWithin tolerance left right = true := by
  rw [lessWithin_iff nonneg] at first second ⊢
  rcases first with below | ⟨near, value⟩ <;> rcases second with below' | ⟨near', value'⟩
  · exact Or.inl (by linarith)
  · -- the first two are in different layers, so the outer two are
    have apart : ¬ Near tolerance left right := fun outer => by
      have close := abs_le.1 (layered left leftIn right rightIn middle middleIn outer near'.symm)
      linarith
    have close := abs_le.1 near'
    rcases lt_abs.1 (not_le.1 apart) with above | under
    · linarith
    · exact Or.inl (by linarith)
  · have apart : ¬ Near tolerance left right := fun outer => by
      have close := abs_le.1 (layered middle middleIn left leftIn right rightIn near.symm outer)
      linarith
    have close := abs_le.1 near
    rcases lt_abs.1 (not_le.1 apart) with above | under
    · linarith
    · exact Or.inl (by linarith)
  · exact Or.inr ⟨layered left leftIn middle middleIn right rightIn near near', by linarith⟩

end Layered

end BigM

end LinearProgramming
