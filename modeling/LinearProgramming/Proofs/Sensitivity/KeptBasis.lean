/-
This file proves when the basis of a tableau is optimal for a changed problem.

The inverse of the basis matrix does two things. It turns changed right-hand sides into the levels
of the basic columns, and it turns the costs of these columns into prices of the rows. When the
levels are not negative, artificial ones are zero, and the basic columns keep their coefficients,
the levels are a feasible point. When no column is worth less than it costs, the prices bound
every feasible point. Both sides are worth the same, so the point is best.
-/

import Mathlib
import LinearProgramming.Proofs.Duality
import LinearProgramming.Proofs.Optimality

namespace LinearProgramming

/-! ### Prices from an inverse -/

namespace Problem

variable {problem : Problem Rat}

/-- Numbers of the rows times the signs of the rows. -/
def signed (problem : Problem Rat) (numbers : Fin problem.numRows → Rat) :
    Fin problem.numRows → Rat := fun i => problem.rowSign i * numbers i

/-- The price of a row as the author wrote it, from an inverse of a basis matrix and the costs of
the basic columns. -/
def rowPrice (problem : Problem Rat)
    (inverse : Matrix (Fin problem.numRows) (Fin problem.numRows) Rat)
    (basicCost : Fin problem.numRows → BigM Rat) (i : Fin problem.numRows) : BigM Rat :=
  problem.rowSign i • ∑ row, inverse row i • basicCost row

/-- The worth of numbers of the rows is what the inverse makes of them, at the costs of the basic
columns. -/
theorem sum_smul_rowPrice (inverse : Matrix (Fin problem.numRows) (Fin problem.numRows) Rat)
    (basicCost : Fin problem.numRows → BigM Rat) (numbers : Fin problem.numRows → Rat) :
    ∑ i, numbers i • problem.rowPrice inverse basicCost i =
      ∑ row, inverse.mulVec (problem.signed numbers) row • basicCost row := by
  simp only [rowPrice, Matrix.mulVec, dotProduct, signed, Finset.smul_sum, Finset.sum_smul,
    smul_smul]
  rw [Finset.sum_comm]
  refine Finset.sum_congr rfl fun row _ => Finset.sum_congr rfl fun i _ => ?_
  exact congrArg (· • basicCost row) (by ring)

theorem allowsPrice_rowPrice_iff
    (inverse : Matrix (Fin problem.numRows) (Fin problem.numRows) Rat)
    (basicCost : Fin problem.numRows → BigM Rat) (i : Fin problem.numRows) :
    (problem.row i).relation.AllowsPrice (problem.rowPrice inverse basicCost i) ↔
      (problem.rowRelation i).AllowsPrice (∑ row, inverse row i • basicCost row) := by
  unfold rowPrice
  rcases problem.rowSign_cases i with ⟨_, sign, relation⟩ | ⟨_, sign, relation⟩
  · rw [sign, relation, neg_one_smul, ← Relation.allowsPrice_flipped_neg, neg_neg]
  · rw [sign, relation, one_smul]

end Problem

namespace Tableau.Represents

variable {problem : Problem Rat} {valid : problem.Valid}
  {inverse : Matrix (Fin problem.numRows) (Fin problem.numRows) Rat}
  {tableau : Tableau Rat problem.numRows problem.numColumns}
  (represents : Represents (.ofProblem problem valid) inverse tableau)

include represents

/-- The entries under a column are the inverse times its entries in the equations. -/
theorem entry_eq_sum (row : Fin problem.numRows) (column : Fin problem.numColumns) :
    tableau.entry row column =
      ∑ i, inverse row i * problem.entry valid i (problem.columnVector.get column) := by
  refine (represents.entry_eq row column).trans
    ((Matrix.mul_apply ..).trans (Finset.sum_congr rfl fun i _ => ?_))
  exact congrArg (inverse row i * ·) (StandardForm.ofProblem_a valid i column)

theorem entry_decision (row : Fin problem.numRows) (j : Fin problem.numVars) :
    tableau.entry row (j.castLE problem.numVars_le_numColumns) =
      inverse.mulVec (problem.signed fun i => problem.coefficient valid i j) row := by
  rw [represents.entry_eq_sum, problem.get_columnVector_decision]
  rfl

theorem entry_slack {i row : Fin problem.numRows} {column : Fin problem.numColumns}
    (slack : problem.columnVector.get column = .slack i) :
    tableau.entry row column = inverse row i := by
  rw [represents.entry_eq_sum, slack]
  simp [Problem.entry]

theorem entry_surplus {i row : Fin problem.numRows} {column : Fin problem.numColumns}
    (surplus : problem.columnVector.get column = .surplus i) :
    tableau.entry row column = -inverse row i := by
  rw [represents.entry_eq_sum, surplus]
  simp [Problem.entry]

end Tableau.Represents

/-- The levels of the variables, read by column. -/
theorem Tableau.byColumn_spread {problem : Problem Rat} (valid : problem.Valid)
    (tableau : Tableau Rat problem.numRows problem.numColumns)
    (levels : Fin problem.numRows → Rat) (j : Fin problem.numVars) :
    StandardForm.byColumn valid (tableau.spread levels) (.decision j) =
      tableau.spread levels (j.castLE problem.numVars_le_numColumns) :=
  StandardForm.byColumn_decision valid _ j

/-! ### When a basis is kept -/

/-- What keeps the basis of a tableau optimal for a program with the relations and the sense of
the problem: the levels of the basic columns are what the inverse makes of the right-hand sides,
they are not negative and zero where artificial, basic variables keep their coefficients, and no
column is worth less than it costs. -/
structure KeepsBasis {problem : Problem Rat} (valid : problem.Valid)
    (inverse : Matrix (Fin problem.numRows) (Fin problem.numRows) Rat)
    (tableau : Tableau Rat problem.numRows problem.numColumns)
    (program : IndexedProblem problem.numRows problem.numVars)
    (levels : Fin problem.numRows → Rat) (basicCost : Fin problem.numRows → BigM Rat) : Prop where
  represents : tableau.Represents (.ofProblem problem valid) inverse
  sense : program.sense = problem.sense
  relation : ∀ i, program.relation i = (problem.row i).relation
  basicCost_eq : ∀ row, basicCost row =
    problem.sense.columnCost program.objective (problem.columnVector.get (tableau.basis.get row))
  levels_eq : levels = inverse.mulVec (problem.signed program.rhs)
  nonneg : ∀ row, 0 ≤ levels row
  artificial : ∀ row, (problem.columnVector.get (tableau.basis.get row)).isArtificial = true →
    levels row = 0
  kept : ∀ j, j.castLE problem.numVars_le_numColumns ∈ Set.range tableau.basis.get →
    ∀ i, program.coefficient i j = problem.coefficient valid i j
  covers : ∀ j, .ofScalar (problem.sense.orient (program.objective j)) ≤
    ∑ row, inverse.mulVec (problem.signed fun i => program.coefficient i j) row • basicCost row
  slack : ∀ column i, problem.slackColumn? i = some (problem.columnVector.get column) →
    0 ≤ ∑ row, tableau.entry row column • basicCost row

namespace KeepsBasis

variable {problem : Problem Rat} {valid : problem.Valid}
  {inverse : Matrix (Fin problem.numRows) (Fin problem.numRows) Rat}
  {tableau : Tableau Rat problem.numRows problem.numColumns}
  {program : IndexedProblem problem.numRows problem.numVars}
  {levels : Fin problem.numRows → Rat} {basicCost : Fin problem.numRows → BigM Rat}
  (keeps : KeepsBasis valid inverse tableau program levels basicCost)

include keeps

theorem injective : Function.Injective tableau.basis.get := keeps.represents.basis_injective

/-- The level of a column, with zero outside the basis. -/
theorem byColumn_artificial (i : Fin problem.numRows) :
    StandardForm.byColumn valid (tableau.spread levels) (.artificial i) = 0 := by
  refine StandardForm.byColumn_artificial valid (fun column artificial => ?_) i
  by_cases basic : column ∈ Set.range tableau.basis.get
  · obtain ⟨row, rfl⟩ := basic
    exact (Tableau.spread_basis keeps.injective row).trans (keeps.artificial row artificial)
  · exact Tableau.spread_of_not_basic basic

theorem byColumn_nonneg (column : Column problem.numVars problem.numRows) :
    0 ≤ StandardForm.byColumn valid (tableau.spread levels) column :=
  StandardForm.byColumn_nonneg valid (Tableau.spread_nonneg keeps.injective keeps.nonneg) column

/-- Each row of the problem is closed at the changed right-hand side. -/
theorem equation (i : Fin problem.numRows) :
    problem.rowSign i * ∑ j, problem.coefficient valid i j *
        tableau.spread levels (j.castLE problem.numVars_le_numColumns) +
      problem.closing (StandardForm.byColumn valid (tableau.spread levels)) i =
    problem.rowSign i * program.rhs i := by
  have solved : ∑ column, (StandardForm.ofProblem problem valid).a.get i column *
      tableau.spread levels column = problem.rowSign i * program.rhs i := by
    rw [keeps.levels_eq]
    exact keeps.represents.equations_spread (problem.signed program.rhs) i
  simp only [← tableau.byColumn_spread valid]
  rw [← Problem.sum_entry_mul valid i, ← solved]
  refine Finset.sum_congr rfl fun column _ => ?_
  exact congrArg₂ (· * ·) (StandardForm.ofProblem_a valid i column).symm
    (StandardForm.byColumn_get valid _ column)

/-- The program allows the levels of the basis. -/
theorem allows : program.Allows fun j =>
    tableau.spread levels (j.castLE problem.numVars_le_numColumns) where
  nonneg _ := Tableau.spread_nonneg keeps.injective keeps.nonneg _
  holds i := by
    -- the changed coefficients stand at variables without level
    have unchanged : ∀ j, program.coefficient i j *
        tableau.spread levels (j.castLE problem.numVars_le_numColumns) =
          problem.coefficient valid i j *
            tableau.spread levels (j.castLE problem.numVars_le_numColumns) := by
      intro j
      by_cases basic : j.castLE problem.numVars_le_numColumns ∈ Set.range tableau.basis.get
      · rw [keeps.kept j basic]
      · rw [Tableau.spread_of_not_basic basic, mul_zero, mul_zero]
    rw [keeps.relation, Finset.sum_congr rfl fun j _ => unchanged j,
      ← problem.holds_rowRelation_iff]
    exact Problem.holds_of_equation (keeps.equation i) (keeps.byColumn_nonneg _)
      (keeps.byColumn_nonneg _) (keeps.byColumn_artificial i)

/-- The inverse prices the rows of the program. -/
theorem prices : program.Prices (problem.rowPrice inverse basicCost) where
  allowed i := by
    rw [keeps.relation, Problem.allowsPrice_rowPrice_iff]
    cases relation : problem.rowRelation i with
    | atMost =>
      have closes : problem.slackColumn? i = some (.slack i) := by
        unfold Problem.slackColumn?
        rw [relation]
      obtain ⟨column, found⟩ := problem.exists_column (problem.slackColumn?_mem closes)
      have worth := keeps.slack column i (closes.trans (congrArg some found.symm))
      simp only [keeps.represents.entry_slack found] at worth
      exact worth
    | atLeast =>
      have closes : problem.slackColumn? i = some (.surplus i) := by
        unfold Problem.slackColumn?
        rw [relation]
      obtain ⟨column, found⟩ := problem.exists_column (problem.slackColumn?_mem closes)
      have worth := keeps.slack column i (closes.trans (congrArg some found.symm))
      simp only [keeps.represents.entry_surplus found, neg_smul, Finset.sum_neg_distrib] at worth
      exact neg_nonneg.1 worth
    | equal => trivial
  covers j := by
    rw [keeps.sense, Problem.sum_smul_rowPrice]
    exact keeps.covers j

/-- The right-hand sides are worth the objective of the levels of the basis. -/
theorem objective_eq :
    ∑ row, levels row • basicCost row =
      .ofScalar (problem.sense.orient (∑ j, program.objective j *
        tableau.spread levels (j.castLE problem.numVars_le_numColumns))) := by
  have spread := Tableau.sum_spread_smul keeps.injective levels fun column =>
    problem.sense.columnCost program.objective (problem.columnVector.get column)
  simp only [← keeps.basicCost_eq] at spread
  simp only [← tableau.byColumn_spread valid]
  rw [← problem.sum_smul_columnCost problem.sense program.objective keeps.byColumn_artificial,
    ← spread]
  refine Finset.sum_congr rfl fun column _ => congrArg (· • _) ?_
  exact (StandardForm.byColumn_get valid _ column).symm

/-- At the prices of the inverse the right-hand sides are worth the same. -/
theorem attained :
    ∑ i, program.rhs i • problem.rowPrice inverse basicCost i =
      .ofScalar (program.sense.orient (∑ j, program.objective j *
        tableau.spread levels (j.castLE problem.numVars_le_numColumns))) := by
  rw [Problem.sum_smul_rowPrice, ← keeps.levels_eq, keeps.objective_eq, keeps.sense]

/-- The levels of the basis are a best point of the program. -/
theorem isBest : program.toProblem.IsBest
    (List.ofFn fun j => tableau.spread levels (j.castLE problem.numVars_le_numColumns)) :=
  keeps.prices.isBest keeps.allows keeps.attained

end KeepsBasis

end LinearProgramming
