/-
This file compares the two sides of a constraint up to a margin.

The check of a constraint allows a deviation, so it accepts the points at which the relation holds
within the default tolerance. A relation that holds within one margin holds within every larger
one, holds after both sides change their sign, and holds within a margin after the left-hand side
has moved by no more than it.
-/

import Mathlib
import LinearProgramming.Proofs.BigM.Nearness
import LinearProgramming.Proofs.StandardForm.Equations

namespace LinearProgramming

/-- Two sides stand in a relation, or miss it by a margin at most. -/
def Relation.HoldsWithin (margin : Rat) (relation : Relation) (left right : Rat) : Prop :=
  match relation with
  | atMost => left ≤ right + margin
  | atLeast => right - margin ≤ left
  | equal => |left - right| ≤ margin

namespace Relation

variable {relation : Relation} {margin left right : Rat}

theorem HoldsWithin.mono {larger : Rat} (holds : relation.HoldsWithin margin left right)
    (below : margin ≤ larger) : relation.HoldsWithin larger left right := by
  cases relation with
  | atMost => exact le_trans holds (add_le_add_right below right)
  | atLeast => exact le_trans (sub_le_sub_left below right) holds
  | equal => exact le_trans holds below

theorem holdsWithin_zero_iff : relation.HoldsWithin 0 left right ↔ relation.Holds left right := by
  cases relation with
  | atMost => exact iff_of_eq (congrArg (left ≤ ·) (add_zero right))
  | atLeast => exact iff_of_eq (congrArg (· ≤ left) (sub_zero right))
  | equal => exact abs_nonpos_iff.trans sub_eq_zero

theorem holdsWithin_flipped_neg :
    relation.flipped.HoldsWithin margin (-left) (-right) ↔
      relation.HoldsWithin margin left right := by
  cases relation with
  | atMost =>
    show -right - margin ≤ -left ↔ left ≤ right + margin
    constructor <;> intro <;> linarith
  | atLeast =>
    show -left ≤ -right + margin ↔ right - margin ≤ left
    constructor <;> intro <;> linarith
  | equal =>
    show |-left - -right| ≤ margin ↔ |left - right| ≤ margin
    rw [neg_sub_neg, abs_sub_comm]

/-- Where a relation holds, it holds within a margin after the left-hand side has moved by no more
than the margin. -/
theorem Holds.holdsWithin {moved : Rat} (holds : relation.Holds left right)
    (close : |moved - left| ≤ margin) : relation.HoldsWithin margin moved right := by
  obtain ⟨below, above⟩ := abs_le.1 close
  cases relation with
  | atMost =>
    have holds : left ≤ right := holds
    show moved ≤ right + margin
    linarith
  | atLeast =>
    have holds : right ≤ left := holds
    show right - margin ≤ moved
    linarith
  | equal =>
    have same : left = right := holds
    rw [← same]
    exact close

end Relation

namespace Constraint

variable {constraint : Constraint Rat} {point : List Rat}

/-- The check of a constraint accepts exactly what the default tolerance allows. -/
theorem isSatisfiedBy_iff : constraint.isSatisfiedBy point = true ↔
    constraint.relation.HoldsWithin Scalar.epsilon (constraint.lhs point) constraint.rhs := by
  unfold isSatisfiedBy
  cases constraint.relation with
  | atMost => exact decide_eq_true_iff
  | atLeast => exact decide_eq_true_iff
  | equal => exact decide_eq_true_iff.trans (iff_of_eq (congrArg (· ≤ _) (Scalar.abs_eq _)))

/-- A constraint that holds passes the check, which allows more. -/
theorem isSatisfiedBy_of_holds (holds : constraint.Holds point) :
    constraint.isSatisfiedBy point = true :=
  isSatisfiedBy_iff.2 ((Relation.holdsWithin_zero_iff.2 (holds_iff.1 holds)).mono epsilon_nonneg)

end Constraint

/-- Two sides stand in the relation of a row within a margin after both are multiplied by its sign
exactly when they stand so in that of its constraint. -/
theorem Problem.holdsWithin_rowRelation_iff (problem : Problem Rat) (i : Fin problem.numRows)
    (margin left right : Rat) :
    (problem.rowRelation i).HoldsWithin margin (problem.rowSign i * left)
        (problem.rowSign i * right) ↔
      (problem.row i).relation.HoldsWithin margin left right := by
  rcases problem.rowSign_cases i with ⟨_, sign, relation⟩ | ⟨_, sign, relation⟩
  · rw [sign, relation, neg_one_mul, neg_one_mul, Relation.holdsWithin_flipped_neg]
  · rw [sign, relation, one_mul, one_mul]

end LinearProgramming
