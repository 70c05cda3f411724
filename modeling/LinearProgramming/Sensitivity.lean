/-
This file reads an optimal tableau for what it says about nearby problems.

The columns of the first basis hold the inverse of the basis matrix, and the objective row holds
the prices of the constraints. From these come the shadow prices, the intervals in which one
objective coefficient can move without a change of the optimal basis, and the intervals in which
one right-hand side can move while the basis stays feasible.
-/

import LinearProgramming.Simplex

namespace LinearProgramming

variable {α : Type} [Scalar α]

/-- The change of the optimal objective per unit of a right-hand side. -/
structure ShadowPrice (α : Type) where
  row : Nat
  name : String
  value : α

/-- The interval of an objective coefficient in which the optimal basis stays the same. -/
structure ObjectiveRange (α : Type) where
  variableIndex : Nat
  name : String
  basic : Bool
  current : α
  lower : Extended α
  upper : Extended α

/-- The interval of a right-hand side in which the optimal basis stays feasible. -/
structure RhsRange (α : Type) where
  row : Nat
  name : String
  current : α
  lower : Extended α
  upper : Extended α

/-- A valid problem with an optimal tableau of its standard form. -/
structure Sensitivity (α : Type) [Scalar α] where
  problem : Problem α
  valid : problem.Valid
  solver : Solver α
  form : StandardForm α
  tableau : Tableau α form.numRows form.numColumns
  numVars_eq : form.numVars = problem.numVars
  numRows_eq : form.numRows = problem.numRows

namespace Sensitivity

/-! ### Making an analysis -/

/-- The analysis of a problem from a run on a standard form. The run must have ended with an
optimal tableau, and its form must be that of the problem. -/
def ofRun (problem : Problem α) {form : StandardForm α} (run : Run form) :
    Except ProblemError (Sensitivity α) :=
  if run.status = some .optimal then do
    let ⟨valid⟩ ← problem.validate
    if sameVars : form.numVars = problem.numVars then
      if sameRows : form.numRows = problem.numRows then
        if form.agrees (StandardForm.ofProblem problem valid) then
          return ⟨problem, valid, run.solver, form, run.tableau, sameVars, sameRows⟩
        else throw .problemMismatch
      else throw (.dimension .solvedConstraints problem.numRows form.numRows)
    else throw (.dimension .solvedVariables problem.numVars form.numVars)
  else throw (.notOptimal (run.status.getD .notConverged))

/-- The analysis of a problem from a run to the end. -/
def analyze (problem : Problem α) (solver : Solver α) : Except ProblemError (Sensitivity α) := do
  let started ← solver.start problem
  ofRun problem started.2.complete

/-! ### The basis -/

/-- The tolerance of the comparisons. -/
def tolerance (analysis : Sensitivity α) : α := analysis.solver.tolerance

/-- The constraint of a row. -/
def constraint (analysis : Sensitivity α) (row : Fin analysis.form.numRows) : Constraint α :=
  analysis.problem.row (row.cast analysis.numRows_eq)

/-- The column of a variable. -/
def variableColumn (analysis : Sensitivity α) (j : Fin analysis.problem.numVars) :
    Fin analysis.form.numColumns :=
  analysis.form.decisionColumn (j.cast analysis.numVars_eq.symm)

/-- The inverse of the basis matrix, which stands in the columns of the first basis. -/
def inverse (analysis : Sensitivity α) :
    DenseMatrix α analysis.form.numRows analysis.form.numRows :=
  DenseMatrix.ofFn fun i k => analysis.tableau.entry i (analysis.form.initialBasis.get k)

/-- The levels of the basic unknowns. -/
def levels (analysis : Sensitivity α) : Vector α analysis.form.numRows :=
  Vector.ofFn analysis.tableau.rhs

/-- The costs of the basic columns. -/
def basicCosts (analysis : Sensitivity α) : Vector (BigM α) analysis.form.numRows :=
  analysis.tableau.basis.map analysis.form.costs.get

/-- The columns that a change may bring into the basis: those that are neither basic nor
artificial. -/
def candidates (analysis : Sensitivity α) : List (Fin analysis.form.numColumns) :=
  (List.finRange analysis.form.numColumns).filter fun column =>
    !analysis.tableau.isBasic column && !analysis.form.isArtificial column

/-- The values of the variables when the basic unknowns have given levels. -/
def valuesAt (analysis : Sensitivity α) (levels : Vector α analysis.form.numRows) : List α :=
  (List.range analysis.form.numVars).map fun number =>
    ((analysis.tableau.basicRow? number).map levels.get).getD 0

/-- The values of the variables at the optimum. -/
def values (analysis : Sensitivity α) : List α := analysis.valuesAt analysis.levels

/-- The optimal objective in the author's sense. -/
def objectiveValue (analysis : Sensitivity α) : α :=
  analysis.problem.sense.orient analysis.tableau.objective.value

/-! ### Shadow prices -/

/-- The shadow price of a row, read from the objective row under its slack or surplus column. An
equation has no such column and gets the price zero. -/
def shadowPrice (analysis : Sensitivity α) (row : Fin analysis.form.numRows) : α :=
  match analysis.form.slackOf.get row with
  | some column =>
    analysis.problem.sense.orient
      ((analysis.tableau.objectiveEntry column).value *
        (analysis.form.columns.get column).slackSign * analysis.form.rowSigns.get row)
  | none => 0

/-- The shadow prices of all constraints. -/
def shadowPrices (analysis : Sensitivity α) : List (ShadowPrice α) :=
  (List.finRange analysis.form.numRows).map fun (row : Fin analysis.form.numRows) =>
    ⟨row, (analysis.constraint row).name, analysis.shadowPrice row⟩

/-! ### Intervals -/

/-- An interval around zero narrowed by a bound at `-level / slope`: from below for a positive
slope and from above for a negative one. -/
def narrow (level slope : α) (interval : Extended α × Extended α) :
    Extended α × Extended α :=
  let bound := -level / slope
  if 0 < slope then (interval.1.raiseTo bound, interval.2)
  else (interval.1, interval.2.lowerTo bound)

/-- The interval reflected at zero. -/
def reflected (interval : Extended α × Extended α) : Extended α × Extended α :=
  (interval.2.negate, interval.1.negate)

/-- How far the cost of the basic column of a row can move, in the form that is made large. -/
def costInterval (analysis : Sensitivity α) (row : Fin analysis.form.numRows) :
    Extended α × Extended α :=
  analysis.candidates.foldl (fun interval column =>
    let slope := analysis.tableau.entry row column
    if Scalar.abs slope ≤ analysis.tolerance then interval
    else narrow (analysis.tableau.objectiveEntry column).value slope interval)
    (.negInf, .posInf)

/-- The interval of the objective coefficient of a variable. Outside the basis only making the
variable more attractive can bring it in. -/
def objectiveRange (analysis : Sensitivity α) (j : Fin analysis.problem.numVars) :
    ObjectiveRange α :=
  let current := analysis.problem.objectiveCoefficient analysis.valid j
  let cost := analysis.problem.sense.orient current
  let (basic, interval) :=
    match analysis.tableau.basicRow? j with
    | none =>
      (false, (Extended.negInf,
        .finite (cost + (analysis.tableau.objectiveEntry (analysis.variableColumn j)).value)))
    | some row =>
      let interval := analysis.costInterval row
      (true, (interval.1.shift cost, interval.2.shift cost))
  let interval := match analysis.problem.sense with
    | .maximize => interval
    | .minimize => reflected interval
  ⟨j, analysis.problem.variableName j, basic, current, interval.1, interval.2⟩

/-- The intervals of all objective coefficients. -/
def objectiveRanges (analysis : Sensitivity α) : List (ObjectiveRange α) :=
  (List.finRange analysis.problem.numVars).map analysis.objectiveRange

/-- How far the right-hand side of a row can move, with its sign in the standard form. A basic
artificial unknown has to stay at zero, so a row that moves one cannot move at all. -/
def levelInterval (analysis : Sensitivity α) (row : Fin analysis.form.numRows) :
    Extended α × Extended α :=
  (List.finRange analysis.form.numRows).foldl (fun interval basicRow =>
    let slope := analysis.inverse.get basicRow row
    if Scalar.abs slope ≤ analysis.tolerance then interval
    else if analysis.form.isArtificial (analysis.tableau.basis.get basicRow) then
      (interval.1.raiseTo 0, interval.2.lowerTo 0)
    else narrow (analysis.levels.get basicRow) slope interval)
    (.negInf, .posInf)

/-- The interval of the right-hand side of a constraint. A row that was negated moves the other
way. -/
def rhsRange (analysis : Sensitivity α) (row : Fin analysis.form.numRows) : RhsRange α :=
  let interval := analysis.levelInterval row
  let interval := if analysis.form.rowSigns.get row < 0 then reflected interval else interval
  let current := (analysis.constraint row).rhs
  ⟨row, (analysis.constraint row).name, current, interval.1.shift current,
    interval.2.shift current⟩

/-- The intervals of all right-hand sides. -/
def rhsRanges (analysis : Sensitivity α) : List (RhsRange α) :=
  (List.finRange analysis.form.numRows).map analysis.rhsRange

end Sensitivity

end LinearProgramming
