/-
This file relates the feasible points of a problem to the solutions of its standard form.

A feasible point becomes a solution without artificial levels when each slack and surplus unknown
takes up the distance of its row, and the decision variables of any such solution are a feasible
point. Both directions read one equation of the form as a constraint: the row times its sign, with
the unknowns that close it.
-/

import Mathlib
import LinearProgramming.Proofs.StandardForm.Equations

namespace LinearProgramming

namespace Problem

variable {problem : Problem Rat}

/-- What the unknowns that belong to a row add to its left-hand side. -/
def closing (problem : Problem Rat) (level : Column problem.numVars problem.numRows → Rat)
    (i : Fin problem.numRows) : Rat :=
  match problem.rowRelation i with
  | .atMost => level (.slack i)
  | .atLeast => level (.artificial i) - level (.surplus i)
  | .equal => level (.artificial i)

/-- The left-hand side of an equation: the row times its sign, with what closes it. -/
theorem sum_entry_mul (valid : problem.Valid) (i : Fin problem.numRows)
    (level : Column problem.numVars problem.numRows → Rat) :
    ∑ j, problem.entry valid i (problem.columnVector.get j) *
        level (problem.columnVector.get j) =
      problem.rowSign i * ∑ j, problem.coefficient valid i j * level (.decision j) +
        problem.closing level i := by
  -- only the row's own slack and artificial columns have an entry in it
  have ownSlack : ∀ k, k ≠ i → ((problem.slackColumn? k).map fun column =>
      problem.entry valid i column * level column).getD 0 = 0 := by
    intro k other
    unfold slackColumn?
    cases problem.rowRelation k <;> simp [entry, other]
  have ownArtificial : ∀ k, k ≠ i → ((problem.artificialColumn? k).map fun column =>
      problem.entry valid i column * level column).getD 0 = 0 := by
    intro k other
    unfold artificialColumn?
    cases problem.rowRelation k <;> simp [entry, other]
  rw [problem.sum_columns fun column => problem.entry valid i column * level column,
    Fintype.sum_eq_single i ownSlack, Fintype.sum_eq_single i ownArtificial, add_assoc]
  congr 1
  · rw [Finset.mul_sum]
    exact Finset.sum_congr rfl fun j _ => mul_assoc _ _ _
  · unfold slackColumn? artificialColumn? closing
    cases problem.rowRelation i with
    | atMost => simp [entry]
    | atLeast =>
      simp only [entry, Option.map_some, Option.getD_some, if_pos]
      ring
    | equal => simp [entry]

/-- An equation without artificial level is the constraint: its slack or surplus level has the
sign that the relation asks for. -/
theorem holds_of_equation {i : Fin problem.numRows}
    {level : Column problem.numVars problem.numRows → Rat} {left right : Rat}
    (equation : left + problem.closing level i = right) (slack : 0 ≤ level (.slack i))
    (surplus : 0 ≤ level (.surplus i)) (artificial : level (.artificial i) = 0) :
    (problem.rowRelation i).Holds left right := by
  unfold closing at equation
  cases relation : problem.rowRelation i with
  | atMost =>
    simp only [relation] at equation
    exact (le_add_of_nonneg_right slack).trans equation.le
  | atLeast =>
    simp only [relation, artificial, zero_sub] at equation
    exact equation.symm.le.trans (add_le_of_nonpos_right (neg_nonpos.2 surplus))
  | equal =>
    simp only [relation, artificial, add_zero] at equation
    exact equation

/-- Without artificial levels the costs are the objective of the decision variables. -/
theorem sum_smul_columnCost (problem : Problem Rat) (sense : Sense)
    (objective : Fin problem.numVars → Rat)
    {level : Column problem.numVars problem.numRows → Rat}
    (artificial : ∀ i, level (.artificial i) = 0) :
    ∑ j, level (problem.columnVector.get j) •
        sense.columnCost objective (problem.columnVector.get j) =
      .ofScalar (sense.orient (∑ j, objective j * level (.decision j))) := by
  have noSlack : ∀ i, ((problem.slackColumn? i).map fun column =>
      level column • sense.columnCost objective column).getD 0 = 0 := by
    intro i
    unfold slackColumn?
    cases problem.rowRelation i <;> simp [Sense.columnCost]
  have noArtificial : ∀ i, ((problem.artificialColumn? i).map fun column =>
      level column • sense.columnCost objective column).getD 0 = 0 := by
    intro i
    unfold artificialColumn?
    cases problem.rowRelation i <;> simp [artificial]
  rw [problem.sum_columns fun column => level column • sense.columnCost objective column,
    Finset.sum_eq_zero fun i _ => noSlack i, Finset.sum_eq_zero fun i _ => noArtificial i, add_zero,
    add_zero, Sense.ofScalar_orient_sum]
  rfl

/-! ### From points to solutions -/

/-- The level of a column at a point: slack and surplus unknowns take up the distance between the
two sides of their row. -/
def levelAtPoint (problem : Problem Rat) (point : List Rat)
    (length : point.length = problem.numVars) :
    Column problem.numVars problem.numRows → Rat
  | .decision j => levelAt length j
  | .slack i => problem.rowSign i * ((problem.row i).rhs - (problem.row i).lhs point)
  | .surplus i => problem.rowSign i * ((problem.row i).lhs point - (problem.row i).rhs)
  | .artificial _ => 0

/-- The distance that closes a row has the right sign where the constraint holds. -/
theorem levelAtPoint_slack_nonneg {point : List Rat} (feasible : problem.Feasible point)
    {i : Fin problem.numRows} {column : Column problem.numVars problem.numRows}
    (closes : problem.slackColumn? i = some column) :
    0 ≤ problem.levelAtPoint point feasible.length column := by
  have holds := (problem.holds_row_iff i point).1 (feasible.holds _ (List.get_mem _ i))
  unfold slackColumn? at closes
  cases relation : problem.rowRelation i with
  | atMost =>
    rw [relation] at holds closes
    cases closes
    simp only [levelAtPoint, mul_sub]
    exact sub_nonneg.2 holds
  | atLeast =>
    rw [relation] at holds closes
    cases closes
    simp only [levelAtPoint, mul_sub]
    exact sub_nonneg.2 holds
  | equal =>
    rw [relation] at closes
    cases closes

theorem levelAtPoint_nonneg {point : List Rat} (feasible : problem.Feasible point)
    {column : Column problem.numVars problem.numRows} (member : column ∈ problem.columns) :
    0 ≤ problem.levelAtPoint point feasible.length column := by
  rcases List.mem_append.1 member with earlier | isArtificial
  · rcases List.mem_append.1 earlier with isDecision | isSlack
    · obtain ⟨k, _, rfl⟩ := List.mem_map.1 isDecision
      exact levelAt_nonneg feasible k
    · obtain ⟨i, _, closes⟩ := List.mem_filterMap.1 isSlack
      exact levelAtPoint_slack_nonneg feasible closes
  · obtain ⟨i, _, added⟩ := List.mem_filterMap.1 isArtificial
    rw [artificialColumn?_kind added]
    exact le_rfl

/-- At a feasible point every row is closed exactly. -/
theorem closing_levelAtPoint {point : List Rat} (feasible : problem.Feasible point)
    (i : Fin problem.numRows) :
    problem.closing (problem.levelAtPoint point feasible.length) i =
      problem.rowSign i * ((problem.row i).rhs - (problem.row i).lhs point) := by
  have holds := (problem.holds_row_iff i point).1 (feasible.holds _ (List.get_mem _ i))
  unfold closing
  cases relation : problem.rowRelation i with
  | atMost => rfl
  | atLeast =>
    simp only [levelAtPoint]
    ring
  | equal =>
    rw [relation] at holds
    simp only [levelAtPoint, mul_sub]
    exact (sub_eq_zero.2 holds.symm).symm

end Problem

namespace StandardForm

variable {problem : Problem Rat} (valid : problem.Valid)

/-- The levels of all unknowns at a point. -/
def levelsAt (point : List Rat) (length : point.length = problem.numVars) :
    Fin (ofProblem problem valid).numColumns → Rat :=
  fun j => problem.levelAtPoint point length (problem.columnVector.get j)

theorem solves_levelsAt {point : List Rat} (feasible : problem.Feasible point) :
    (ofProblem problem valid).Solves (levelsAt valid point feasible.length) where
  nonneg j := Problem.levelAtPoint_nonneg feasible (List.get_mem _ _)
  equations := by
    intro (i : Fin problem.numRows)
    have entries : ∀ j, (ofProblem problem valid).a.get i j *
        levelsAt valid point feasible.length j =
        problem.entry valid i (problem.columnVector.get j) *
          problem.levelAtPoint point feasible.length (problem.columnVector.get j) :=
      fun j => congrArg (· * _) (ofProblem_a valid i j)
    refine (Finset.sum_congr rfl fun j _ => entries j).trans ?_
    refine (Problem.sum_entry_mul valid i _).trans ?_
    refine Eq.trans ?_ (ofProblem_b valid i).symm
    rw [Problem.closing_levelAtPoint feasible, problem.lhs_row valid feasible.length, mul_sub]
    exact add_sub_cancel _ _

theorem noArtificial_levelsAt (point : List Rat) (length : point.length = problem.numVars) :
    (ofProblem problem valid).NoArtificial (levelsAt valid point length) := by
  intro j artificial
  have kind : (problem.columnVector.get j).isArtificial = true := artificial
  unfold levelsAt
  generalize problem.columnVector.get j = column at kind ⊢
  cases column with
  | artificial i => rfl
  | decision | slack | surplus => cases kind

/-- The costs of levels without artificial part, read by column, are the objective of the
decision variables. -/
theorem costOf_eq {levels : Fin (ofProblem problem valid).numColumns → Rat}
    {level : Column problem.numVars problem.numRows → Rat}
    (same : ∀ j, level (problem.columnVector.get j) = levels j)
    (artificial : ∀ i, level (.artificial i) = 0) :
    (ofProblem problem valid).costOf levels =
      .ofScalar (problem.sense.orient
        (∑ j, problem.objectiveCoefficient valid j * level (.decision j))) := by
  rw [← problem.sum_smul_columnCost _ _ artificial]
  refine Finset.sum_congr rfl fun j _ => congrArg₂ (· • ·) (same j).symm ?_
  exact (ofProblem_costs valid j).trans (Problem.cost_eq_columnCost valid _)

/-- The costs of a point are its objective, without penalty. -/
theorem costOf_levelsAt (point : List Rat) (length : point.length = problem.numVars) :
    (ofProblem problem valid).costOf (levelsAt valid point length) =
      .ofScalar (problem.sense.orient (problem.evaluate point)) := by
  rw [problem.evaluate_eq valid length]
  exact costOf_eq valid (fun _ => rfl) fun _ => rfl

/-! ### From solutions to points -/

theorem pointOf_length (levels : Fin (ofProblem problem valid).numColumns → Rat) :
    ((ofProblem problem valid).pointOf levels).length = problem.numVars :=
  List.length_ofFn

/-- Levels by index, read off by column. -/
def byColumn (levels : Fin (ofProblem problem valid).numColumns → Rat)
    (column : Column problem.numVars problem.numRows) : Rat :=
  if member : column ∈ problem.columns then
    levels ⟨problem.columns.idxOf column, List.idxOf_lt_length_of_mem member⟩
  else 0

theorem byColumn_get (levels : Fin (ofProblem problem valid).numColumns → Rat)
    (j : Fin problem.numColumns) :
    byColumn valid levels (problem.columnVector.get j) = levels j := by
  have member : problem.columnVector.get j ∈ problem.columns := List.get_mem _ _
  unfold byColumn
  rw [dif_pos member]
  exact congrArg levels (problem.columnVector_injective (List.getElem_idxOf _))

theorem byColumn_nonneg {levels : Fin (ofProblem problem valid).numColumns → Rat}
    (nonneg : ∀ j, 0 ≤ levels j) (column : Column problem.numVars problem.numRows) :
    0 ≤ byColumn valid levels column := by
  unfold byColumn
  split
  · exact nonneg _
  · exact le_rfl

/-- What holds of zero and of every artificial level holds of the artificial level of a row. -/
theorem byColumn_artificial_of {levels : Fin (ofProblem problem valid).numColumns → Rat}
    (holds : Rat → Prop) (zero : holds 0)
    (each : ∀ j, (ofProblem problem valid).isArtificial j = true → holds (levels j))
    (i : Fin problem.numRows) : holds (byColumn valid levels (.artificial i)) := by
  unfold byColumn
  split
  · rename_i member
    refine each _ ?_
    have found : problem.columnVector.get ⟨problem.columns.idxOf (.artificial i),
        List.idxOf_lt_length_of_mem member⟩ = .artificial i := List.getElem_idxOf _
    exact congrArg Column.isArtificial found
  · exact zero

theorem byColumn_artificial {levels : Fin (ofProblem problem valid).numColumns → Rat}
    (noArtificial : (ofProblem problem valid).NoArtificial levels) (i : Fin problem.numRows) :
    byColumn valid levels (.artificial i) = 0 :=
  byColumn_artificial_of valid (· = 0) rfl noArtificial i

theorem byColumn_decision (levels : Fin (ofProblem problem valid).numColumns → Rat)
    (j : Fin problem.numVars) :
    byColumn valid levels (.decision j) = levels ((ofProblem problem valid).decisionColumn j) := by
  rw [← problem.get_columnVector_decision j]
  exact byColumn_get valid _ _

theorem levelAt_pointOf (levels : Fin (ofProblem problem valid).numColumns → Rat)
    (j : Fin problem.numVars) :
    Problem.levelAt (pointOf_length valid levels) j = byColumn valid levels (.decision j) := by
  rw [byColumn_decision]
  unfold Problem.levelAt pointOf
  simp only [List.get_ofFn]
  rfl

/-- The equation of a row at a solution: the row times its sign, with the levels that close it. -/
theorem equation_pointOf {levels : Fin (ofProblem problem valid).numColumns → Rat}
    (solves : (ofProblem problem valid).Solves levels) (i : Fin problem.numRows) :
    problem.rowSign i * (problem.row i).lhs ((ofProblem problem valid).pointOf levels) +
        problem.closing (byColumn valid levels) i =
      problem.rowSign i * (problem.row i).rhs := by
  rw [problem.lhs_row valid (pointOf_length valid levels)]
  simp only [levelAt_pointOf]
  rw [← Problem.sum_entry_mul valid i]
  refine Eq.trans (Finset.sum_congr rfl fun j _ => ?_)
    ((solves.equations i).trans (ofProblem_b valid i))
  exact congrArg₂ (· * ·) (ofProblem_a valid i j).symm (byColumn_get valid levels j)

/-- The decision variables of a solution without artificial levels are a feasible point. -/
theorem feasible_pointOf {levels : Fin (ofProblem problem valid).numColumns → Rat}
    (solves : (ofProblem problem valid).Solves levels)
    (noArtificial : (ofProblem problem valid).NoArtificial levels) :
    problem.Feasible ((ofProblem problem valid).pointOf levels) := by
  refine problem.feasible_of_rows (pointOf_length valid levels) (fun j => ?_) fun i => ?_
  · rw [levelAt_pointOf]
    exact byColumn_nonneg valid solves.nonneg _
  · rw [problem.holds_row_iff]
    exact Problem.holds_of_equation (equation_pointOf valid solves i)
      (byColumn_nonneg valid solves.nonneg _) (byColumn_nonneg valid solves.nonneg _)
      (byColumn_artificial valid noArtificial i)

/-- The costs of a solution without artificial levels are the objective of its point. -/
theorem costOf_eq_pointOf {levels : Fin (ofProblem problem valid).numColumns → Rat}
    (noArtificial : (ofProblem problem valid).NoArtificial levels) :
    (ofProblem problem valid).costOf levels =
      .ofScalar (problem.sense.orient
        (problem.evaluate ((ofProblem problem valid).pointOf levels))) := by
  rw [problem.evaluate_eq valid (pointOf_length valid levels),
    costOf_eq valid (byColumn_get valid levels) (byColumn_artificial valid noArtificial)]
  simp only [levelAt_pointOf]

end StandardForm

end LinearProgramming
