/-
This file states that no index is ever out of range.

Everything that can be done with a problem has a checked twin that works on lists and tables of any
size, looks every entry up by its number and ends with nothing as soon as a look-up misses. Where a
problem has a fault, nothing is looked up at all: every entry point hands the fault on. Where it has
none, each twin ends, and with the parts of what the original ends with, so none of its look-ups
misses. That depends on shapes alone, which is why the comparisons and the numbers may come out in
any way. The arguments of a caller are the only numbers that nothing vouches for, and those outside
of their range are answered by an error that names them.
-/

import LinearProgramming.Proofs.Bounds.Questions
import LinearProgramming.Proofs.Bounds.Revised
import LinearProgramming.Proofs.Bounds.Search

namespace LinearProgramming

variable {α : Type} [Scalar α]

/-! ### Problems with a fault -/

/-- Every way to solve a problem or to analyse it ends with a given fault. -/
structure Problem.FailsWith (problem : Problem α) (fault : ProblemError) : Prop where
  start : ∀ solver : Solver α, solver.start problem = .error fault
  solve : ∀ solver : Solver α, solver.solve problem = .error fault
  revised : RevisedSimplex.ofProblem problem = .error fault
  search : ∀ (settings : BranchAndBound α) (mask : List Bool),
    settings.solveMixed problem mask = .error fault
  analyze : ∀ solver : Solver α, Sensitivity.analyze problem solver = .error fault

theorem Problem.failsWith_of_validate {problem : Problem α} {fault : ProblemError}
    (faulty : problem.validate = .error fault) : problem.FailsWith fault := by
  have start (solver : Solver α) : solver.start problem = .error fault := by
    rw [Solver.start, faulty]
    rfl
  refine ⟨start, fun solver => ?_, ?_, fun settings mask => ?_, fun solver => ?_⟩
  · rw [Solver.solve, start]
    rfl
  · rw [RevisedSimplex.ofProblem, faulty]
    rfl
  · rw [BranchAndBound.solveMixed, faulty]
    rfl
  · rw [Sensitivity.analyze, start]
    rfl

/-! ### Problems without a fault -/

/-- No look-up misses when a problem is solved or analysed, and a mask of the wrong length is
rejected. -/
structure Problem.StaysInside (problem : Problem α) : Prop where
  drive : ∀ (solver : Solver α) (calls : List Run.Call), ∃ started,
    solver.start problem = .ok started ∧
      Bare.drive? solver problem calls = some (.ok (started.2.drive calls).bare)
  solve : ∀ solver : Solver α, ∃ solution,
    solver.solve problem = .ok solution ∧ Bare.solve? solver problem = some (.ok solution.bare)
  revised : ∃ engine, RevisedSimplex.ofProblem problem = .ok engine ∧
    Bare.Engine.ofProblem? problem = some (.ok engine.bare)
  search : ∀ (settings : BranchAndBound α) (mask : List Bool),
    Bare.solveMixed? settings problem mask =
      some ((settings.solveMixed problem mask).map SearchTree.bare)
  mask : ∀ (settings : BranchAndBound α) (mask : List Bool), mask.length ≠ problem.numVars →
    settings.solveMixed problem mask = .error (.integerMaskLength problem.numVars mask.length)
  analyze : ∀ solver : Solver α, Bare.Analysis.analyze? problem solver =
    some ((Sensitivity.analyze problem solver).map Sensitivity.bare)

theorem Problem.staysInside_of_validate {problem : Problem α} {evidence : PLift problem.Valid}
    (validated : problem.validate = .ok evidence) : problem.StaysInside := by
  have start (solver : Solver α) : ∃ started, solver.start problem = .ok started := by
    rw [Solver.start, validated]
    exact ⟨_, rfl⟩
  constructor
  case drive =>
    intro solver calls
    obtain ⟨started, begun⟩ := start solver
    refine ⟨started, begun, ?_⟩
    rw [Solver.drive?_bare, begun]
    rfl
  case solve =>
    intro solver
    obtain ⟨started, begun⟩ := start solver
    have solved : solver.solve problem = .ok started.2.complete.solution := by
      rw [Solver.solve, begun]
      rfl
    refine ⟨_, solved, ?_⟩
    rw [Solver.solve?_bare, solved]
    rfl
  case revised =>
    rw [RevisedSimplex.ofProblem?_bare, RevisedSimplex.ofProblem, validated]
    exact ⟨_, rfl, rfl⟩
  case search => exact fun settings mask => settings.solveMixed?_bare problem mask
  case mask =>
    intro settings mask wrong
    have unmeasured : vectorOf? problem.numVars mask = none := dif_neg wrong
    rw [BranchAndBound.solveMixed, validated]
    simp only [bind, Except.bind]
    rw [unmeasured]
  case analyze => exact fun solver => Sensitivity.analyze?_bare problem solver

/-! ### Runs -/

/-- No look-up misses when a run goes on or is read. -/
structure Run.StaysInside {form : StandardForm α} (run : Run form) : Prop where
  step : run.bare.step? = some (Prod.map Progress.bare bare run.step)
  complete : run.bare.complete? = some run.complete.bare
  values : run.bare.values? = some run.values
  objectiveValue : run.bare.objectiveValue? = some run.objectiveValue
  solution : run.bare.solution? = some run.solution.bare
  analysis : ∀ problem : Problem α, Bare.Analysis.ofRun? problem run.bare =
    some ((Sensitivity.ofRun problem run).map Sensitivity.bare)

theorem Run.staysInside {form : StandardForm α} (run : Run form) : run.StaysInside where
  step := run.step?_bare
  complete := run.complete?_bare
  values := run.values?_bare
  objectiveValue := run.objectiveValue?_bare
  solution := run.solution?_bare
  analysis problem := Sensitivity.ofRun?_bare problem run

/-! ### Reports and questions -/

namespace Sensitivity

/-- No look-up misses when an analysis is read or asked, whatever it is asked. -/
structure StaysInside (analysis : Sensitivity α) : Prop where
  values : analysis.bare.values? = some analysis.values
  objectiveValue : analysis.bare.objectiveValue? = some analysis.objectiveValue
  shadowPrices : analysis.bare.shadowPrices? = some analysis.shadowPrices
  objectiveRanges : analysis.bare.objectiveRanges? = some analysis.objectiveRanges
  rhsRanges : analysis.bare.rhsRanges? = some analysis.rhsRanges
  changeRhs : ∀ number rhs, analysis.bare.changeRhs? number rhs =
    some ((analysis.changeRhs number rhs).map WhatIfAnswer.bare)
  changeCoefficient : ∀ rowNumber variableNumber coefficient,
    analysis.bare.changeCoefficient? rowNumber variableNumber coefficient =
      some ((analysis.changeCoefficient rowNumber variableNumber coefficient).map
        WhatIfAnswer.bare)
  changeRow : ∀ number constraint, analysis.bare.changeRow? number constraint =
    some ((analysis.changeRow number constraint).map WhatIfAnswer.bare)
  changeCost : ∀ number coefficient, analysis.bare.changeCost? number coefficient =
    some ((analysis.changeCost number coefficient).map WhatIfAnswer.bare)
  addConstraint : ∀ constraint, analysis.bare.addConstraint? constraint =
    some ((analysis.addConstraint constraint).map WhatIfAnswer.bare)
  addVariable : ∀ name coefficient column,
    analysis.bare.addVariable? name coefficient column =
      some ((analysis.addVariable name coefficient column).map WhatIfAnswer.bare)

theorem staysInside (analysis : Sensitivity α) : analysis.StaysInside where
  values := analysis.values?_bare
  objectiveValue := analysis.objectiveValue?_bare
  shadowPrices := analysis.shadowPrices?_bare
  objectiveRanges := analysis.objectiveRanges?_bare
  rhsRanges := analysis.rhsRanges?_bare
  changeRhs := analysis.changeRhs?_bare
  changeCoefficient := analysis.changeCoefficient?_bare
  changeRow := analysis.changeRow?_bare
  changeCost := analysis.changeCost?_bare
  addConstraint := analysis.addConstraint?_bare
  addVariable := analysis.addVariable?_bare

section Rejections

variable (analysis : Sensitivity α)

theorem rowIndex_of_le {number : Nat} (outside : analysis.problem.numRows ≤ number) :
    analysis.rowIndex number = .error (.constraintIndex number analysis.problem.numRows) :=
  dif_neg outside.not_gt

theorem variableIndex_of_le {number : Nat} (outside : analysis.problem.numVars ≤ number) :
    analysis.variableIndex number = .error (.variableIndex number analysis.problem.numVars) :=
  dif_neg outside.not_gt

theorem exists_rowIndex {number : Nat} (inside : number < analysis.problem.numRows) :
    ∃ row, analysis.rowIndex number = .ok row :=
  ⟨_, dif_pos inside⟩

theorem newCoefficients_of_ne {constraint : Constraint α}
    (wrong : constraint.coefficients.length ≠ analysis.problem.numVars) :
    analysis.newCoefficients constraint = .error (.coefficientCount constraint.name
      analysis.problem.numVars constraint.coefficients.length) := by
  have unmeasured : vectorOf? analysis.problem.numVars constraint.coefficients = none :=
    dif_neg wrong
  rw [newCoefficients, unmeasured]

end Rejections

/-- Questions about a constraint or a variable that is not there, and lists of the wrong length, are
answered by an error that says so. -/
structure RejectsOutside (analysis : Sensitivity α) : Prop where
  changeRhs : ∀ number rhs, analysis.problem.numRows ≤ number →
    analysis.changeRhs number rhs = .error (.constraintIndex number analysis.problem.numRows)
  changeCoefficient_row : ∀ rowNumber variableNumber coefficient,
    analysis.problem.numRows ≤ rowNumber →
      analysis.changeCoefficient rowNumber variableNumber coefficient =
        .error (.constraintIndex rowNumber analysis.problem.numRows)
  changeCoefficient_variable : ∀ rowNumber variableNumber coefficient,
    rowNumber < analysis.problem.numRows → analysis.problem.numVars ≤ variableNumber →
      analysis.changeCoefficient rowNumber variableNumber coefficient =
        .error (.variableIndex variableNumber analysis.problem.numVars)
  changeRow_row : ∀ number constraint, analysis.problem.numRows ≤ number →
    analysis.changeRow number constraint =
      .error (.constraintIndex number analysis.problem.numRows)
  changeRow_length : ∀ number (constraint : Constraint α), number < analysis.problem.numRows →
    constraint.coefficients.length ≠ analysis.problem.numVars →
      analysis.changeRow number constraint =
        .error (.coefficientCount constraint.name analysis.problem.numVars
          constraint.coefficients.length)
  changeCost : ∀ number coefficient, analysis.problem.numVars ≤ number →
    analysis.changeCost number coefficient =
      .error (.variableIndex number analysis.problem.numVars)
  addConstraint : ∀ constraint : Constraint α,
    constraint.coefficients.length ≠ analysis.problem.numVars →
      analysis.addConstraint constraint =
        .error (.coefficientCount constraint.name analysis.problem.numVars
          constraint.coefficients.length)
  addVariable : ∀ name coefficient (column : List α),
    column.length ≠ analysis.problem.numRows →
      analysis.addVariable name coefficient column =
        .error (.dimension .newColumn analysis.problem.numRows column.length)

theorem rejectsOutside (analysis : Sensitivity α) : analysis.RejectsOutside := by
  constructor
  case changeRhs =>
    intro number rhs outside
    rw [changeRhs, rowIndex_of_le _ outside]
    rfl
  case changeCoefficient_row =>
    intro rowNumber variableNumber coefficient outside
    rw [changeCoefficient, rowIndex_of_le _ outside]
    rfl
  case changeCoefficient_variable =>
    intro rowNumber variableNumber coefficient inside outside
    obtain ⟨i, found⟩ := analysis.exists_rowIndex inside
    rw [changeCoefficient, found, variableIndex_of_le _ outside]
    rfl
  case changeRow_row =>
    intro number constraint outside
    rw [changeRow, rowIndex_of_le _ outside]
    rfl
  case changeRow_length =>
    intro number constraint inside wrong
    obtain ⟨i, found⟩ := analysis.exists_rowIndex inside
    rw [changeRow, found, newCoefficients_of_ne _ wrong]
    rfl
  case changeCost =>
    intro number coefficient outside
    rw [changeCost, variableIndex_of_le _ outside]
    rfl
  case addConstraint =>
    intro constraint wrong
    rw [addConstraint, newCoefficients_of_ne _ wrong]
    rfl
  case addVariable =>
    intro name coefficient column wrong
    have unmeasured : vectorOf? analysis.form.numRows column = none :=
      dif_neg (analysis.numRows_eq ▸ wrong)
    rw [addVariable, unmeasured]

end Sensitivity

/-! ### Everything -/

/-- No index is ever out of range, whatever the problem and whatever the operations of its scalars
return. A problem with a fault is turned away with it everywhere. Otherwise nothing that is done
with the problem misses a look-up, and neither does a step of a run, a revised run, a report of an
analysis or its answer to a question; arguments outside of their range are rejected. -/
theorem Problem.accesses_inBounds (problem : Problem α) :
    (match problem.validate with
      | .error fault => problem.FailsWith fault
      | .ok _ => problem.StaysInside) ∧
    (∀ (form : StandardForm α) (run : Run form), run.StaysInside) ∧
    (∀ engine : RevisedSimplex α, engine.bare.solve? = some engine.solve.bare) ∧
    ∀ analysis : Sensitivity α, analysis.StaysInside ∧ analysis.RejectsOutside := by
  refine ⟨?_, fun form run => run.staysInside, fun engine => engine.solve?_bare,
    fun analysis => ⟨analysis.staysInside, analysis.rejectsOutside⟩⟩
  cases validated : problem.validate with
  | error fault => exact failsWith_of_validate validated
  | ok evidence => exact staysInside_of_validate validated

end LinearProgramming
