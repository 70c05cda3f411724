/-
This file says what it means to solve a linear program exactly.

A point is feasible when it has one non-negative entry for each variable and every constraint
holds without tolerance. Objectives are compared in the sense of the author, and comparing them in
that sense is comparing them in the form that is made large.
-/

import Mathlib
import LinearProgramming.Problem.Validity
import LinearProgramming.StandardForm
import LinearProgramming.Proofs.ExactSums

namespace LinearProgramming

/-! ### Feasible points -/

/-- The constraint holds at a point, without tolerance. -/
def Constraint.Holds (constraint : Constraint Rat) (point : List Rat) : Prop :=
  match constraint.relation with
  | .atMost => constraint.lhs point ≤ constraint.rhs
  | .atLeast => constraint.rhs ≤ constraint.lhs point
  | .equal => constraint.lhs point = constraint.rhs

instance (constraint : Constraint Rat) (point : List Rat) : Decidable (constraint.Holds point) :=
  match relation : constraint.relation with
  | .atMost =>
    decidable_of_iff (constraint.lhs point ≤ constraint.rhs) (by simp [Constraint.Holds, relation])
  | .atLeast =>
    decidable_of_iff (constraint.rhs ≤ constraint.lhs point) (by simp [Constraint.Holds, relation])
  | .equal =>
    decidable_of_iff (constraint.lhs point = constraint.rhs) (by simp [Constraint.Holds, relation])

theorem epsilon_nonneg : (0 : Rat) ≤ Scalar.epsilon := by decide +kernel

/-- A point that the problem allows. -/
structure Problem.Feasible (problem : Problem Rat) (point : List Rat) : Prop where
  length : point.length = problem.numVars
  nonneg : ∀ level ∈ point, 0 ≤ level
  holds : ∀ constraint ∈ problem.constraints, constraint.Holds point

instance (problem : Problem Rat) (point : List Rat) : Decidable (problem.Feasible point) :=
  decidable_of_iff (point.length = problem.numVars ∧ (∀ level ∈ point, 0 ≤ level) ∧
      ∀ constraint ∈ problem.constraints, constraint.Holds point)
    ⟨fun ⟨length, nonneg, holds⟩ => ⟨length, nonneg, holds⟩,
      fun feasible => ⟨feasible.length, feasible.nonneg, feasible.holds⟩⟩

/-! ### Better objectives -/

/-- One objective is better than another in the author's sense. -/
def Sense.Better (sense : Sense) (left right : Rat) : Prop :=
  match sense with
  | maximize => right < left
  | minimize => left < right

instance (sense : Sense) (left right : Rat) : Decidable (sense.Better left right) :=
  match sense with
  | .maximize => inferInstanceAs (Decidable (right < left))
  | .minimize => inferInstanceAs (Decidable (left < right))

theorem Sense.better_iff {sense : Sense} {left right : Rat} :
    sense.Better left right ↔ sense.orient right < sense.orient left := by
  cases sense with
  | maximize => exact Iff.rfl
  | minimize => exact neg_lt_neg_iff.symm

theorem Sense.not_better_iff {sense : Sense} {left right : Rat} :
    ¬ sense.Better left right ↔ sense.orient left ≤ sense.orient right := by
  rw [Sense.better_iff, not_lt]

@[simp] theorem Sense.orient_orient (sense : Sense) (number : Rat) :
    sense.orient (sense.orient number) = number := by
  cases sense with
  | maximize => rfl
  | minimize => exact neg_neg number

theorem Sense.orient_sum {ι : Type} (sense : Sense) (indices : Finset ι) (terms : ι → Rat) :
    sense.orient (∑ i ∈ indices, terms i) = ∑ i ∈ indices, sense.orient (terms i) := by
  cases sense with
  | maximize => rfl
  | minimize => exact (Finset.sum_neg_distrib terms).symm

theorem Sense.orient_mul (sense : Sense) (left right : Rat) :
    sense.orient (left * right) = sense.orient left * right := by
  cases sense with
  | maximize => rfl
  | minimize => exact (neg_mul left right).symm

/-- A feasible point that no feasible point betters. -/
structure Problem.IsBest (problem : Problem Rat) (point : List Rat) : Prop where
  feasible : problem.Feasible point
  best : ∀ other, problem.Feasible other →
    ¬ problem.sense.Better (problem.evaluate other) (problem.evaluate point)

/-! ### Rows and objectives as sums over the variables -/

namespace Problem

/-- The level that a point gives to a variable. -/
def levelAt {problem : Problem Rat} {point : List Rat} (length : point.length = problem.numVars)
    (j : Fin problem.numVars) : Rat :=
  point.get (j.cast length.symm)

theorem levelAt_nonneg {problem : Problem Rat} {point : List Rat}
    (feasible : problem.Feasible point) (j : Fin problem.numVars) :
    0 ≤ levelAt feasible.length j :=
  feasible.nonneg _ (List.get_mem point _)

theorem lhs_row (problem : Problem Rat) (valid : problem.Valid) {point : List Rat}
    (length : point.length = problem.numVars) (i : Fin problem.numRows) :
    (problem.row i).lhs point = ∑ j, problem.coefficient valid i j * levelAt length j :=
  Scalar.dot_eq_sum _ _ _ (valid.constraints_fit _ (List.get_mem _ i)).length length

theorem evaluate_eq (problem : Problem Rat) (valid : problem.Valid) {point : List Rat}
    (length : point.length = problem.numVars) :
    problem.evaluate point = ∑ j, problem.objectiveCoefficient valid j * levelAt length j :=
  Scalar.dot_eq_sum _ _ _ valid.objective_length length

/-- A point with the right length and no negative entry is feasible when every row holds. -/
theorem feasible_of_rows (problem : Problem Rat) {point : List Rat}
    (length : point.length = problem.numVars) (nonneg : ∀ j, 0 ≤ levelAt length j)
    (rows : ∀ i, (problem.row i).Holds point) : problem.Feasible point := by
  refine ⟨length, fun level member => ?_, fun constraint member => ?_⟩
  · obtain ⟨position, rfl⟩ := List.mem_iff_get.1 member
    exact nonneg (position.cast length)
  · obtain ⟨i, rfl⟩ := List.mem_iff_get.1 member
    exact rows i

end Problem

/-! ### Samples -/

/-- A problem with an equation and a negative right-hand side. -/
def mixedProblem : Problem Rat :=
  ((((Problem.withVariables 2).setObjective [3, 5] .maximize).constrain [1, 1] .atMost 4).constrain
    [1, 3] .equal 6).constrain [-1, 0] .atMost (-1)

theorem mixedProblem_valid : mixedProblem.Valid :=
  Problem.fault?_eq_none_iff.1 (by decide +kernel)

/-- A problem whose two constraints contradict each other, with any objective. -/
def contradictoryProblem (objective : List Rat) : Problem Rat :=
  (((Problem.withVariables 2).setObjective objective .maximize).constrain [1, 0] .atMost 2).constrain
    [1, 0] .atLeast 5

theorem not_feasible_contradictoryProblem (objective point : List Rat) :
    ¬ (contradictoryProblem objective).Feasible point := by
  intro feasible
  have above : Scalar.dot [1, 0] point ≤ 2 := feasible.holds _ (List.Mem.head _)
  have below : 5 ≤ Scalar.dot [1, 0] point :=
    feasible.holds _ (List.Mem.tail _ (List.Mem.head _))
  exact absurd (below.trans above) (by decide)

end LinearProgramming
