/-
This file proves that prices of the rows bound the objective of every feasible point.

For this a problem is taken apart into its numbers, which are found by index, so that another
problem of the same shape is another function. A price for each row respects the relations when
it has the sign that the relation of its row allows, and it covers a variable when the column of
the variable is worth no less than its objective coefficient. With such prices no feasible point
has a better objective than what the right-hand sides are worth (weak duality), and a feasible
point that attains this is best. The prices carry penalties, as the objective row of a tableau
does.
-/

import Mathlib
import LinearProgramming.Proofs.StandardForm.Equations

namespace LinearProgramming

/-! ### Problems by index -/

/-- A list of a known length is the list of its entries by index. -/
theorem ofFn_get_cast {β : Type} {count : Nat} (list : List β) (length : list.length = count) :
    (List.ofFn fun i : Fin count => list.get (i.cast length.symm)) = list := by
  subst length
  exact List.ofFn_get list

/-- A linear program whose numbers are found by index. -/
structure IndexedProblem (m n : Nat) where
  variableName : Fin n → String
  objective : Fin n → Rat
  sense : Sense
  rowName : Fin m → String
  coefficient : Fin m → Fin n → Rat
  relation : Fin m → Relation
  rhs : Fin m → Rat

namespace IndexedProblem

variable {m n : Nat}

/-- A row as a constraint. -/
def constraint (program : IndexedProblem m n) (i : Fin m) : Constraint Rat :=
  ⟨program.rowName i, List.ofFn (program.coefficient i), program.relation i, program.rhs i⟩

/-- The problem with these numbers. -/
def toProblem (program : IndexedProblem m n) : Problem Rat :=
  ⟨List.ofFn program.variableName, List.ofFn program.objective, program.sense,
    List.ofFn program.constraint⟩

/-- Levels of the variables that the program allows. -/
structure Allows (program : IndexedProblem m n) (levels : Fin n → Rat) : Prop where
  nonneg : ∀ j, 0 ≤ levels j
  holds : ∀ i, (program.relation i).Holds (∑ j, program.coefficient i j * levels j)
    (program.rhs i)

variable {program : IndexedProblem m n}

theorem dot_ofFn (left right : Fin n → Rat) :
    Scalar.dot (List.ofFn left) (List.ofFn right) = ∑ j, left j * right j := by
  rw [Scalar.dot_eq_sum _ _ n List.length_ofFn List.length_ofFn]
  simp

theorem evaluate_toProblem (program : IndexedProblem m n) (levels : Fin n → Rat) :
    program.toProblem.evaluate (List.ofFn levels) = ∑ j, program.objective j * levels j :=
  dot_ofFn _ _

theorem holds_constraint_iff (program : IndexedProblem m n) (i : Fin m) (levels : Fin n → Rat) :
    (program.constraint i).Holds (List.ofFn levels) ↔
      (program.relation i).Holds (∑ j, program.coefficient i j * levels j) (program.rhs i) := by
  rw [Constraint.holds_iff]
  exact iff_of_eq (congrArg (fun left => (program.relation i).Holds left (program.rhs i))
    (dot_ofFn _ _))

/-- The feasible points of the problem are the levels that the program allows. -/
theorem feasible_ofFn_iff {levels : Fin n → Rat} :
    program.toProblem.Feasible (List.ofFn levels) ↔ program.Allows levels := by
  constructor
  · intro feasible
    refine ⟨fun j => feasible.nonneg _ (List.mem_ofFn.2 ⟨j, rfl⟩), fun i => ?_⟩
    exact (program.holds_constraint_iff i levels).1
      (feasible.holds _ (List.mem_ofFn.2 ⟨i, rfl⟩))
  · intro allowed
    refine ⟨List.length_ofFn.trans List.length_ofFn.symm, fun level member => ?_,
      fun constraint member => ?_⟩
    · obtain ⟨j, rfl⟩ := List.mem_ofFn.1 member
      exact allowed.nonneg j
    · obtain ⟨i, rfl⟩ := List.mem_ofFn.1 member
      exact (program.holds_constraint_iff i levels).2 (allowed.holds i)

/-- Every feasible point lists its levels. -/
theorem exists_levels_of_feasible {point : List Rat} (feasible : program.toProblem.Feasible point) :
    ∃ levels, point = List.ofFn levels ∧ program.Allows levels := by
  have length : point.length = n := feasible.length.trans List.length_ofFn
  obtain ⟨levels, rfl⟩ : ∃ levels : Fin n → Rat, point = List.ofFn levels :=
    ⟨_, (ofFn_get_cast point length).symm⟩
  exact ⟨levels, rfl, feasible_ofFn_iff.1 feasible⟩

end IndexedProblem

namespace Problem

/-- The numbers of a valid problem by index. -/
def indexed (problem : Problem Rat) (valid : problem.Valid) :
    IndexedProblem problem.numRows problem.numVars where
  variableName := problem.variableName
  objective := problem.objectiveCoefficient valid
  sense := problem.sense
  rowName i := (problem.row i).name
  coefficient := problem.coefficient valid
  relation i := (problem.row i).relation
  rhs i := (problem.row i).rhs

/-- The numbers by index make up the problem again. -/
theorem toProblem_indexed (problem : Problem Rat) (valid : problem.Valid) :
    (problem.indexed valid).toProblem = problem := by
  have names : List.ofFn problem.variableName = problem.variableNames := List.ofFn_get _
  have objective : List.ofFn (problem.objectiveCoefficient valid) = problem.objective :=
    ofFn_get_cast _ valid.objective_length
  have rows : (problem.indexed valid).constraint = problem.row := by
    funext i
    have coefficients : List.ofFn (problem.coefficient valid i) = (problem.row i).coefficients :=
      ofFn_get_cast _ (valid.constraints_fit _ (List.get_mem _ i)).length
    show Constraint.mk _ (List.ofFn (problem.coefficient valid i)) _ _ = _
    rw [coefficients]
    rfl
  have constraints : List.ofFn (problem.indexed valid).constraint = problem.constraints := by
    rw [rows]
    exact List.ofFn_get _
  show Problem.mk (List.ofFn problem.variableName)
    (List.ofFn (problem.objectiveCoefficient valid)) problem.sense _ = problem
  rw [names, objective, constraints]

end Problem

/-! ### Prices -/

/-- The sign that a relation allows the price of its row when the objective is made large. -/
def Relation.AllowsPrice (relation : Relation) (price : BigM Rat) : Prop :=
  match relation with
  | atMost => 0 ≤ price
  | atLeast => price ≤ 0
  | equal => True

theorem Relation.allowsPrice_flipped_neg {relation : Relation} {price : BigM Rat} :
    relation.flipped.AllowsPrice (-price) ↔ relation.AllowsPrice price := by
  cases relation with
  | atMost => exact neg_nonpos
  | atLeast => exact neg_nonneg
  | equal => exact Iff.rfl

/-- Where a relation holds, the left-hand side is worth no more than the right-hand side. -/
theorem Relation.smul_le_smul {relation : Relation} {left right : Rat} {price : BigM Rat}
    (holds : relation.Holds left right) (allowed : relation.AllowsPrice price) :
    left • price ≤ right • price := by
  rw [← sub_nonneg, ← sub_smul]
  cases relation with
  | atMost => exact smul_nonneg (sub_nonneg.2 holds) allowed
  | atLeast =>
    rw [← neg_smul_neg, neg_sub]
    exact smul_nonneg (sub_nonneg.2 holds) (neg_nonneg.2 allowed)
  | equal =>
    have same : left = right := holds
    rw [same, sub_self, zero_smul]

namespace IndexedProblem

variable {m n : Nat} {program : IndexedProblem m n} {price : Fin m → BigM Rat}
  {levels : Fin n → Rat}

/-- Prices of the rows with the signs that the relations allow, at which no variable has an
objective coefficient above the worth of its column. -/
structure Prices (program : IndexedProblem m n) (price : Fin m → BigM Rat) : Prop where
  allowed : ∀ i, (program.relation i).AllowsPrice (price i)
  covers : ∀ j, .ofScalar (program.sense.orient (program.objective j)) ≤
    ∑ i, program.coefficient i j • price i

/-- Weak duality: the right-hand sides are worth no less than the objective of any levels that
the program allows. -/
theorem Prices.objective_le (prices : program.Prices price) (allowed : program.Allows levels) :
    .ofScalar (program.sense.orient (∑ j, program.objective j * levels j)) ≤
      ∑ i, program.rhs i • price i := by
  calc .ofScalar (program.sense.orient (∑ j, program.objective j * levels j))
      = ∑ j, levels j • .ofScalar (program.sense.orient (program.objective j)) :=
        program.sense.ofScalar_orient_sum _ _
    _ ≤ ∑ j, levels j • ∑ i, program.coefficient i j • price i :=
        Finset.sum_le_sum fun j _ =>
          smul_le_smul_of_nonneg_left (prices.covers j) (allowed.nonneg j)
    _ = ∑ i, (∑ j, program.coefficient i j * levels j) • price i := by
        simp only [Finset.smul_sum, Finset.sum_smul, smul_smul]
        rw [Finset.sum_comm]
        simp only [mul_comm]
    _ ≤ ∑ i, program.rhs i • price i :=
        Finset.sum_le_sum fun i _ => Relation.smul_le_smul (allowed.holds i) (prices.allowed i)

/-- Levels that attain the worth of the right-hand sides are best. -/
theorem Prices.isBest (prices : program.Prices price) (allowed : program.Allows levels)
    (attained : ∑ i, program.rhs i • price i =
      .ofScalar (program.sense.orient (∑ j, program.objective j * levels j))) :
    program.toProblem.IsBest (List.ofFn levels) := by
  refine ⟨feasible_ofFn_iff.2 allowed, fun other feasible => ?_⟩
  obtain ⟨otherLevels, rfl, otherAllowed⟩ := exists_levels_of_feasible feasible
  rw [evaluate_toProblem, evaluate_toProblem]
  refine Sense.not_better_iff.2 (BigM.ofScalar_le_iff.1 ?_)
  exact (prices.objective_le otherAllowed).trans_eq attained

end IndexedProblem

end LinearProgramming
