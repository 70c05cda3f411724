/-
This file says what the equations of a standard form mean for the problem they come from.

A standard form is canonical: its first basis is the identity, its right-hand sides are not
negative, and exactly the artificial columns carry the penalty. The solutions of the equations
without artificial columns are the feasible points of the problem, and the costs of such a
solution are the objective of its point.
-/

import Mathlib
import LinearProgramming.Proofs.BasisExchange
import LinearProgramming.Proofs.Feasibility
import LinearProgramming.Proofs.StandardForm.Columns

namespace LinearProgramming

theorem get_vectorMap {β γ : Type} {n : Nat} (change : β → γ) (vector : Vector β n) (i : Fin n) :
    (vector.map change).get i = change (vector.get i) := by
  simp [Vector.get]

namespace StandardForm

/-! ### Canonical forms -/

/-- A form from which a run can start: the first basis is the identity and its costs are zero or
the bare penalty, no right-hand side is negative, and the penalty belongs to the artificial
columns alone. -/
structure Canonical (form : StandardForm Rat) : Prop where
  identity : ∀ i k, form.a.get i (form.initialBasis.get k) = if i = k then 1 else 0
  rhs_nonneg : ∀ i, 0 ≤ form.b.get i
  start_cost : ∀ i, form.costs.get (form.initialBasis.get i) = 0 ∨
    form.costs.get (form.initialBasis.get i) = -BigM.penaltyUnit
  penalty : ∀ j, (form.costs.get j).penalty = if form.isArtificial j then -1 else 0

/-- The equations with the right-hand sides as last column. -/
def augmented (form : StandardForm Rat) :
    Matrix (Fin form.numRows) (Fin (form.numColumns + 1)) Rat :=
  Matrix.of fun i => Fin.lastCases (motive := fun _ => Rat) (form.b.get i) (form.a.get i)

@[simp] theorem augmented_castSucc (form : StandardForm Rat) (i : Fin form.numRows)
    (j : Fin form.numColumns) : form.augmented i j.castSucc = form.a.get i j :=
  Fin.lastCases_castSucc (motive := fun _ => Rat) j

@[simp] theorem augmented_last (form : StandardForm Rat) (i : Fin form.numRows) :
    form.augmented i (Fin.last form.numColumns) = form.b.get i :=
  Fin.lastCases_last (motive := fun _ => Rat)

/-- The costs with zero as last entry. -/
def augmentedCosts (form : StandardForm Rat) : Fin (form.numColumns + 1) → BigM Rat :=
  Fin.lastCases 0 form.costs.get

@[simp] theorem augmentedCosts_castSucc (form : StandardForm Rat) (j : Fin form.numColumns) :
    form.augmentedCosts j.castSucc = form.costs.get j :=
  Fin.lastCases_castSucc _

@[simp] theorem augmentedCosts_last (form : StandardForm Rat) :
    form.augmentedCosts (Fin.last form.numColumns) = 0 :=
  Fin.lastCases_last

/-- The square matrix of the columns that a basis lists. -/
def basisOf (form : StandardForm Rat) (basis : Vector (Fin form.numColumns) form.numRows) :
    Matrix (Fin form.numRows) (Fin form.numRows) Rat :=
  basisMatrix form.a.toMatrix basis

theorem Canonical.basisOf_initialBasis {form : StandardForm Rat} (canonical : form.Canonical) :
    form.basisOf form.initialBasis = 1 := by
  ext i k
  rw [basisOf, basisMatrix_apply, DenseMatrix.toMatrix_apply, canonical.identity,
    Matrix.one_apply]

/-! ### Solutions -/

/-- Levels of the unknowns that satisfy the equations and are not negative. -/
structure Solves (form : StandardForm Rat) (levels : Fin form.numColumns → Rat) : Prop where
  nonneg : ∀ j, 0 ≤ levels j
  equations : ∀ i, ∑ j, form.a.get i j * levels j = form.b.get i

/-- No artificial unknown has a level. -/
def NoArtificial (form : StandardForm Rat) (levels : Fin form.numColumns → Rat) : Prop :=
  ∀ j, form.isArtificial j = true → levels j = 0

/-- The costs of levels, to be made large. -/
def costOf (form : StandardForm Rat) (levels : Fin form.numColumns → Rat) : BigM Rat :=
  ∑ j, levels j • form.costs.get j

/-- The levels of the decision variables. -/
def pointOf (form : StandardForm Rat) (levels : Fin form.numColumns → Rat) : List Rat :=
  List.ofFn fun j => levels (form.decisionColumn j)

theorem Canonical.penalty_costOf {form : StandardForm Rat} (canonical : form.Canonical)
    (levels : Fin form.numColumns → Rat) :
    (form.costOf levels).penalty = -∑ j, if form.isArtificial j then levels j else 0 := by
  unfold costOf
  rw [BigM.penalty_sum, ← Finset.sum_neg_distrib]
  refine Finset.sum_congr rfl fun j _ => ?_
  rw [BigM.penalty_smul, canonical.penalty]
  split
  · rw [mul_neg_one]
  · rw [mul_zero, neg_zero]

theorem Canonical.penalty_costOf_eq_zero {form : StandardForm Rat} (canonical : form.Canonical)
    {levels : Fin form.numColumns → Rat} (noArtificial : form.NoArtificial levels) :
    (form.costOf levels).penalty = 0 := by
  rw [canonical.penalty_costOf, Finset.sum_eq_zero, neg_zero]
  intro j _
  split
  · rename_i artificial
    exact noArtificial j artificial
  · rfl

/-- An artificial unknown with a positive level costs a penalty. -/
theorem Canonical.penalty_costOf_neg {form : StandardForm Rat} (canonical : form.Canonical)
    {levels : Fin form.numColumns → Rat} (nonneg : ∀ j, 0 ≤ levels j) {column : Fin form.numColumns}
    (artificial : form.isArtificial column = true) (positive : 0 < levels column) :
    (form.costOf levels).penalty < 0 := by
  rw [canonical.penalty_costOf, neg_lt_zero]
  refine Finset.sum_pos' (fun j _ => ?_) ⟨column, Finset.mem_univ column, ?_⟩
  · split
    · exact nonneg j
    · exact le_rfl
  · rw [if_pos artificial]
    exact positive

end StandardForm

/-! ### Relations under a change of sign -/

/-- Two sides stand in a relation. -/
def Relation.Holds (relation : Relation) (left right : Rat) : Prop :=
  match relation with
  | atMost => left ≤ right
  | atLeast => right ≤ left
  | equal => left = right

theorem Relation.holds_flipped_neg {relation : Relation} {left right : Rat} :
    relation.flipped.Holds (-left) (-right) ↔ relation.Holds left right := by
  cases relation with
  | atMost => exact neg_le_neg_iff
  | atLeast => exact neg_le_neg_iff
  | equal => exact neg_inj

theorem Constraint.holds_iff {constraint : Constraint Rat} {point : List Rat} :
    constraint.Holds point ↔
      constraint.relation.Holds (constraint.lhs point) constraint.rhs := by
  unfold Constraint.Holds
  cases constraint.relation <;> exact Iff.rfl

/-! ### Costs of the columns -/

/-- The objective of a point as the sum of the costs of its levels. -/
theorem Sense.ofScalar_orient_sum {ι : Type} [Fintype ι] (sense : Sense)
    (objective levels : ι → Rat) :
    BigM.ofScalar (sense.orient (∑ j, objective j * levels j)) =
      ∑ j, levels j • BigM.ofScalar (sense.orient (objective j)) := by
  refine BigM.ext_parts ?_ ?_
  · rw [BigM.value_sum, BigM.value_ofScalar, Sense.orient_sum]
    refine Finset.sum_congr rfl fun j _ => ?_
    rw [Sense.orient_mul, BigM.value_smul, BigM.value_ofScalar, mul_comm]
  · rw [BigM.penalty_sum, BigM.penalty_ofScalar]
    refine (Finset.sum_eq_zero fun j _ => ?_).symm
    rw [BigM.penalty_smul, BigM.penalty_ofScalar, mul_zero]

/-- The costs of the columns for given objective coefficients. -/
def Sense.columnCost {vars rows : Nat} (sense : Sense) (objective : Fin vars → Rat) :
    Column vars rows → BigM Rat
  | .decision j => .ofScalar (sense.orient (objective j))
  | .slack _ | .surplus _ => 0
  | .artificial _ => -.penaltyUnit

theorem Sense.columnCost_update_self {vars rows : Nat} (sense : Sense) (objective : Fin vars → Rat)
    (j : Fin vars) (cost : Rat) :
    sense.columnCost (Function.update objective j cost) (.decision j : Column vars rows) =
      .ofScalar (sense.orient cost) :=
  congrArg (fun cost => BigM.ofScalar (sense.orient cost)) (Function.update_self ..)

theorem Sense.columnCost_update_of_ne {vars rows : Nat} (sense : Sense)
    (objective : Fin vars → Rat) {j : Fin vars} (cost : Rat) {column : Column vars rows}
    (other : column ≠ .decision j) :
    sense.columnCost (Function.update objective j cost) column =
      sense.columnCost objective column := by
  cases column with
  | decision k =>
    have different : k ≠ j := fun same => other (congrArg Column.decision same)
    exact congrArg (fun cost => BigM.ofScalar (sense.orient cost))
      (Function.update_of_ne different ..)
  | slack | surplus | artificial => rfl

/-! ### The form of a problem -/

namespace Problem

variable {problem : Problem Rat}

theorem entry_startColumn (valid : problem.Valid) (i k : Fin problem.numRows) :
    problem.entry valid i (problem.startColumn k) = if i = k then 1 else 0 := by
  unfold startColumn
  cases problem.rowRelation k <;> exact if_congr eq_comm rfl rfl

theorem cost_startColumn (valid : problem.Valid) (i : Fin problem.numRows) :
    problem.cost valid (problem.startColumn i) = 0 ∨
      problem.cost valid (problem.startColumn i) = -BigM.penaltyUnit := by
  unfold startColumn
  cases problem.rowRelation i with
  | atMost => exact Or.inl rfl
  | atLeast => exact Or.inr rfl
  | equal => exact Or.inr rfl

theorem cost_eq_columnCost (valid : problem.Valid)
    (column : Column problem.numVars problem.numRows) :
    problem.cost valid column =
      problem.sense.columnCost (problem.objectiveCoefficient valid) column := by
  cases column <;> rfl

theorem penalty_cost (valid : problem.Valid) (column : Column problem.numVars problem.numRows) :
    (problem.cost valid column).penalty = if column.isArtificial then -1 else 0 := by
  cases column <;> rfl

theorem rowSign_cases (problem : Problem Rat) (i : Fin problem.numRows) :
    ((problem.row i).rhs < 0 ∧ problem.rowSign i = -1 ∧
        problem.rowRelation i = (problem.row i).relation.flipped) ∨
      (0 ≤ (problem.row i).rhs ∧ problem.rowSign i = 1 ∧
        problem.rowRelation i = (problem.row i).relation) := by
  by_cases negative : (problem.row i).rhs < 0
  · exact Or.inl ⟨negative, if_pos negative, if_pos negative⟩
  · exact Or.inr ⟨not_lt.1 negative, if_neg negative, if_neg negative⟩

/-- Two sides stand in the relation of a row after both are multiplied by its sign exactly when
they stand in that of its constraint. -/
theorem holds_rowRelation_iff (problem : Problem Rat) (i : Fin problem.numRows)
    (left right : Rat) :
    (problem.rowRelation i).Holds (problem.rowSign i * left) (problem.rowSign i * right) ↔
      (problem.row i).relation.Holds left right := by
  rcases problem.rowSign_cases i with ⟨_, sign, relation⟩ | ⟨_, sign, relation⟩
  · rw [sign, relation, neg_one_mul, neg_one_mul, Relation.holds_flipped_neg]
  · rw [sign, relation, one_mul, one_mul]

/-- A constraint holds exactly when its row holds after both sides are multiplied by its sign. -/
theorem holds_row_iff (problem : Problem Rat) (i : Fin problem.numRows) (point : List Rat) :
    (problem.row i).Holds point ↔ (problem.rowRelation i).Holds
      (problem.rowSign i * (problem.row i).lhs point)
      (problem.rowSign i * (problem.row i).rhs) := by
  rw [Constraint.holds_iff, problem.holds_rowRelation_iff]

theorem rowSign_mul_rhs_nonneg (problem : Problem Rat) (i : Fin problem.numRows) :
    0 ≤ problem.rowSign i * (problem.row i).rhs := by
  rcases problem.rowSign_cases i with ⟨negative, sign, _⟩ | ⟨nonneg, sign, _⟩
  · rw [sign, neg_one_mul]
    exact neg_nonneg.2 negative.le
  · rw [sign, one_mul]
    exact nonneg

end Problem

namespace StandardForm

variable {problem : Problem Rat} (valid : problem.Valid)

theorem ofProblem_a (i : Fin problem.numRows) (j : Fin problem.numColumns) :
    (ofProblem problem valid).a.get i j =
      problem.entry valid i (problem.columnVector.get j) :=
  DenseMatrix.get_ofFn _ i j

theorem ofProblem_b (i : Fin problem.numRows) :
    (ofProblem problem valid).b.get i = problem.rowSign i * (problem.row i).rhs :=
  get_vectorOfFn _ i

theorem ofProblem_costs (j : Fin problem.numColumns) :
    (ofProblem problem valid).costs.get j = problem.cost valid (problem.columnVector.get j) :=
  get_vectorMap _ _ j

theorem ofProblem_initialBasis (i : Fin problem.numRows) :
    problem.columnVector.get ((ofProblem problem valid).initialBasis.get i) =
      problem.startColumn i := by
  refine Eq.trans (congrArg problem.columnVector.get ?_) (problem.get_columnVector_start i)
  exact get_vectorOfFn _ i

theorem ofProblem_initialBasis_cost (i : Fin problem.numRows) :
    (ofProblem problem valid).costs.get ((ofProblem problem valid).initialBasis.get i) =
      problem.cost valid (problem.startColumn i) :=
  (ofProblem_costs valid _).trans (congrArg (problem.cost valid) (ofProblem_initialBasis valid i))

theorem canonical_ofProblem : (ofProblem problem valid).Canonical where
  identity i k :=
    (ofProblem_a valid i _).trans <|
      (congrArg (problem.entry valid i) (ofProblem_initialBasis valid k)).trans <|
        Problem.entry_startColumn valid i k
  rhs_nonneg i :=
    (problem.rowSign_mul_rhs_nonneg i).trans_eq (ofProblem_b valid i).symm
  start_cost i :=
    (Problem.cost_startColumn valid i).imp (ofProblem_initialBasis_cost valid i).trans
      (ofProblem_initialBasis_cost valid i).trans
  penalty j :=
    (congrArg BigM.penalty (ofProblem_costs valid j)).trans (Problem.penalty_cost valid _)

end StandardForm

end LinearProgramming
