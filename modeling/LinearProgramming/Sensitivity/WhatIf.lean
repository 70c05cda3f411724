/-
This file answers what happens to the optimum when one thing in the problem changes.

A change is priced with the inverse of the basis matrix first. If the basic unknowns stay
feasible and no other column improves the objective, the old basis is still optimal and the
answer is read from it; otherwise the changed problem is solved from the start.
-/

import LinearProgramming.Problem.Text
import LinearProgramming.Sensitivity
import LinearProgramming.Sensitivity.Answer

namespace LinearProgramming

variable {α : Type} [Scalar α]

namespace Problem

/-! ### Changed problems -/

/-- The problem with another right-hand side in one constraint. -/
def setRhs (problem : Problem α) (row : Nat) (rhs : α) : Problem α :=
  problem.withConstraints
    (problem.constraints.modify row fun constraint => { constraint with rhs })

/-- The problem with another coefficient in one constraint. -/
def setCoefficient (problem : Problem α) (row variableIndex : Nat) (coefficient : α) :
    Problem α :=
  problem.withConstraints (problem.constraints.modify row fun constraint =>
    { constraint with coefficients := constraint.coefficients.set variableIndex coefficient })

/-- The problem with one constraint replaced. -/
def replaceRow (problem : Problem α) (row : Nat) (constraint : Constraint α) : Problem α :=
  problem.withConstraints (problem.constraints.set row constraint)

/-- The problem with another objective coefficient. -/
def setCost (problem : Problem α) (variableIndex : Nat) (cost : α) : Problem α :=
  { problem with objective := problem.objective.set variableIndex cost }

/-- The problem with one more variable, its objective coefficient and its column. -/
def addVariable (problem : Problem α) (name : String) (cost : α) (column : List α) :
    Problem α :=
  { problem with
    variableNames := problem.variableNames ++ [name]
    objective := problem.objective ++ [cost]
    constraints := List.zipWith (fun constraint coefficient =>
      { constraint with coefficients := constraint.coefficients ++ [coefficient] })
      problem.constraints column }

end Problem

namespace Sensitivity

/-! ### Pricing -/

/-- The right-hand sides as the author wrote them. -/
def rightHandSides (analysis : Sensitivity α) : Vector α analysis.form.numRows :=
  Vector.ofFn fun row => (analysis.constraint row).rhs

/-- The coefficients of a variable as the author wrote them. -/
def coefficients (analysis : Sensitivity α) (j : Fin analysis.problem.numVars) :
    Vector α analysis.form.numRows :=
  Vector.ofFn fun row =>
    analysis.problem.coefficient analysis.valid (row.cast analysis.numRows_eq) j

/-- A column with the signs of the rows applied. -/
def oriented (analysis : Sensitivity α) (column : Vector α analysis.form.numRows) :
    Vector α analysis.form.numRows :=
  Vector.zipWith (· * ·) column analysis.form.rowSigns

/-- The inverse times a column as the author wrote it. -/
def price (analysis : Sensitivity α) (column : Vector α analysis.form.numRows) :
    Vector α analysis.form.numRows :=
  analysis.inverse.mulVec (analysis.oriented column)

/-- A cost less that of the basic columns a direction would replace. It is positive when the
column would improve the objective. -/
def reducedCost {m : Nat} (cost : BigM α) (direction : Vector α m)
    (basicCosts : Vector (BigM α) m) : BigM α :=
  cost - BigM.dot basicCosts.toList direction.toList

/-- A column with a given reduced cost would improve the objective. -/
def improves (analysis : Sensitivity α) (reduced : BigM α) : Bool :=
  (0 : BigM α).lessWithin analysis.tolerance reduced

/-- The basis is feasible at given levels: artificial unknowns at zero, the others not below. -/
def isFeasible (analysis : Sensitivity α) (levels : Vector α analysis.form.numRows) : Bool :=
  (List.finRange analysis.form.numRows).all fun row =>
    if analysis.form.isArtificial (analysis.tableau.basis.get row) then
      Scalar.abs (levels.get row) ≤ analysis.tolerance
    else -analysis.tolerance ≤ levels.get row

/-- The objective at given levels in the author's sense. -/
def objectiveAt (analysis : Sensitivity α) (levels : Vector α analysis.form.numRows) : α :=
  analysis.problem.sense.orient
    (Scalar.dot (analysis.basicCosts.toList.map BigM.value) levels.toList)

/-! ### Answers -/

/-- The answer that the old basis is still optimal. -/
def preserve (problem : Problem α) (steps : List (Remark α)) (message : String)
    (objective : α) (values : List α) : WhatIfAnswer α :=
  ⟨steps ++ [.verdict true message], .preserved objective values, problem⟩

/-- The answer from a fresh run on the changed problem. -/
def resolve (analysis : Sensitivity α) (problem : Problem α) (steps : List (Remark α))
    (reason : String) : Except ProblemError (WhatIfAnswer α) := do
  let solution ← analysis.solver.solve problem
  let summary := "Full re-solve: " ++ solution.status.text ++
    s!" after {solution.iterations} iterations"
  return ⟨steps ++ [.verdict false reason, .info summary], .resolved solution, problem⟩

/-- The reason for a fresh run when a column improves the objective. -/
def improvementReason (name : String) : String :=
  name ++ " now improves the objective, optimality is lost"

/-- The reason for a fresh run when the basic unknowns cannot keep their signs. -/
def infeasibilityReason : String := "xB' has a negative entry, the basis is infeasible"

/-- Looks at named reduced costs in order up to the first that improves the objective. Returns
the considerations, each introduced by a formula, and the name of that one. -/
def firstImproving (analysis : Sensitivity α) (formula : String) :
    List (String × BigM α) → List (Remark α) × Option String
  | [] => ([], none)
  | (name, reduced) :: rest =>
    let step := Remark.calculation (formula ++ " for " ++ name ++ " = " ++ reduced.text)
    if analysis.improves reduced then ([step], some name)
    else
      let (steps, found) := analysis.firstImproving formula rest
      (step :: steps, found)

/-- A row by its number, or the complaint that there is no such constraint. -/
def rowIndex (analysis : Sensitivity α) (number : Nat) :
    Except ProblemError (Fin analysis.form.numRows) :=
  if inRange : number < analysis.problem.numRows then
    .ok ⟨number, analysis.numRows_eq ▸ inRange⟩
  else .error (.constraintIndex number analysis.problem.numRows)

/-- A variable by its number, or the complaint that there is no such variable. -/
def variableIndex (analysis : Sensitivity α) (number : Nat) :
    Except ProblemError (Fin analysis.problem.numVars) :=
  if inRange : number < analysis.problem.numVars then .ok ⟨number, inRange⟩
  else .error (.variableIndex number analysis.problem.numVars)

/-- The coefficients of a new constraint by variable, or the complaint that there are too few or
too many. -/
def newCoefficients (analysis : Sensitivity α) (constraint : Constraint α) :
    Except ProblemError (Vector α analysis.problem.numVars) :=
  match vectorOf? analysis.problem.numVars constraint.coefficients with
  | some coefficients => .ok coefficients
  | none =>
    .error (.coefficientCount constraint.name analysis.problem.numVars
      constraint.coefficients.length)

/-! ### Questions -/

/-- What if the right-hand side of a constraint is another number? -/
def changeRhs (analysis : Sensitivity α) (number : Nat) (rhs : α) :
    Except ProblemError (WhatIfAnswer α) := do
  let row ← analysis.rowIndex number
  let changed := analysis.problem.setRhs number rhs
  let old := analysis.constraint row
  let column := replaceEntry analysis.rightHandSides row rhs
  let levels := analysis.price column
  let steps : List (Remark α) :=
    [.info ("Changing the right-hand side of " ++ old.name ++ " from " ++ numberText old.rhs ++
        " to " ++ numberText rhs),
      .vector "b'" (analysis.oriented column).toList,
      .matrix "B⁻¹" ⟨_, _, analysis.inverse⟩,
      .vector "xB' = B⁻¹b'" levels.toList]
  if analysis.isFeasible levels then
    let objective := analysis.objectiveAt levels
    return preserve changed
      (steps ++ [.calculation ("Z' = C_B·xB' = " ++ numberText objective)])
      "All basic variables stay non-negative, the basis remains optimal" objective
      (analysis.valuesAt levels)
  else analysis.resolve changed steps infeasibilityReason

/-- What if the coefficient of a variable in a constraint is another number? -/
def changeCoefficient (analysis : Sensitivity α) (rowNumber variableNumber : Nat)
    (coefficient : α) : Except ProblemError (WhatIfAnswer α) := do
  let row ← analysis.rowIndex rowNumber
  let j ← analysis.variableIndex variableNumber
  let changed := analysis.problem.setCoefficient rowNumber variableNumber coefficient
  let name := analysis.problem.variableName j
  let column := analysis.coefficients j
  let steps : List (Remark α) :=
    [.info ("Changing the coefficient of " ++ name ++ " in " ++ (analysis.constraint row).name ++
      " from " ++ numberText (column.get row) ++ " to " ++ numberText coefficient)]
  if analysis.tableau.isBasic j then
    analysis.resolve changed steps (name ++ " is basic, so the basis matrix itself changes")
  else
    let direction := analysis.price (replaceEntry column row coefficient)
    let reduced :=
      reducedCost (analysis.form.costs.get (analysis.variableColumn j)) direction
        analysis.basicCosts
    let steps := steps ++
      [.vector ("B⁻¹a'(" ++ name ++ ")") direction.toList,
        .calculation ("c - C_B·B⁻¹a' for " ++ name ++ " = " ++ reduced.text)]
    if analysis.improves reduced then
      analysis.resolve changed steps (improvementReason name)
    else
      return preserve changed steps (name ++ " stays nonbasic, the solution is unchanged")
        analysis.objectiveValue analysis.values

/-- The variables whose coefficients in a row differ from given ones by more than the tolerance. -/
def movedVariables (analysis : Sensitivity α) (row : Fin analysis.form.numRows)
    (coefficients : Vector α analysis.problem.numVars) : List (Fin analysis.problem.numVars) :=
  (List.finRange analysis.problem.numVars).filter fun j =>
    analysis.tolerance < Scalar.abs ((analysis.coefficients j).get row - coefficients.get j)

/-- The name of a variable with the reduced cost it has after its coefficient in a row changed. -/
def repriced (analysis : Sensitivity α) (row : Fin analysis.form.numRows)
    (coefficients : Vector α analysis.problem.numVars) (j : Fin analysis.problem.numVars) :
    String × BigM α :=
  (analysis.problem.variableName j,
    reducedCost (analysis.form.costs.get (analysis.variableColumn j))
      (analysis.price (replaceEntry (analysis.coefficients j) row (coefficients.get j)))
      analysis.basicCosts)

/-- What if a constraint is replaced by another one? -/
def changeRow (analysis : Sensitivity α) (number : Nat) (constraint : Constraint α) :
    Except ProblemError (WhatIfAnswer α) := do
  let row ← analysis.rowIndex number
  let coefficients ← analysis.newCoefficients constraint
  let changed := analysis.problem.replaceRow number constraint
  let names := analysis.problem.variableNames
  let old := analysis.constraint row
  let steps : List (Remark α) :=
    [.info ("Replacing " ++ old.name ++ ": " ++ old.formula names ++ " with " ++
      constraint.formula names)]
  let flips : Bool := constraint.rhs < 0
  let flipped : Bool := old.rhs < 0
  if old.relation ≠ constraint.relation ∨ flips ≠ flipped then
    analysis.resolve changed steps "The relation changed, so the standard form changes"
  else
    let moved := analysis.movedVariables row coefficients
    match moved.find? fun (j : Fin analysis.problem.numVars) => analysis.tableau.isBasic j with
    | some j =>
      analysis.resolve changed steps
        ("The coefficient of basic variable " ++ analysis.problem.variableName j ++ " changed")
    | none =>
      let levels := analysis.price (replaceEntry analysis.rightHandSides row constraint.rhs)
      let steps := steps ++ [.vector "xB' = B⁻¹b'" levels.toList]
      if analysis.isFeasible levels then
        let (prices, improving) := analysis.firstImproving "c - C_B·B⁻¹a'"
          (moved.map (analysis.repriced row coefficients))
        match improving with
        | some name => analysis.resolve changed (steps ++ prices) (improvementReason name)
        | none =>
          return preserve changed (steps ++ prices) "The basis stays feasible and optimal"
            (analysis.objectiveAt levels) (analysis.valuesAt levels)
      else analysis.resolve changed steps infeasibilityReason

/-- What if the objective coefficient of a basic variable is another number? All other columns
have to be priced again. -/
def changeBasicCost (analysis : Sensitivity α) (row : Fin analysis.form.numRows) (cost : BigM α)
    (changed : Problem α) (steps : List (Remark α)) :
    Except ProblemError (WhatIfAnswer α) :=
  let basicCosts := replaceEntry analysis.basicCosts row cost
  let steps := steps ++ [.vector "C_B'" (basicCosts.toList.map BigM.value)]
  let (prices, improving) := analysis.firstImproving "c - C_B'·B⁻¹a"
    (analysis.candidates.map fun column =>
      (analysis.form.names.get column, reducedCost (analysis.form.costs.get column)
        (analysis.tableau.column column) basicCosts))
  match improving with
  | some name => analysis.resolve changed (steps ++ prices) (improvementReason name)
  | none =>
    .ok (preserve changed (steps ++ prices)
      "No nonbasic variable can improve the objective, the basis remains optimal"
      (changed.evaluate analysis.values) analysis.values)

/-- What if the objective coefficient of a variable is another number? -/
def changeCost (analysis : Sensitivity α) (number : Nat) (coefficient : α) :
    Except ProblemError (WhatIfAnswer α) := do
  let j ← analysis.variableIndex number
  let changed := analysis.problem.setCost number coefficient
  let name := analysis.problem.variableName j
  let cost := BigM.ofScalar (analysis.problem.sense.orient coefficient)
  let steps : List (Remark α) :=
    [.info ("Changing the objective coefficient of " ++ name ++ " from " ++
      numberText (analysis.problem.objectiveCoefficient analysis.valid j) ++ " to " ++
      numberText coefficient)]
  match analysis.tableau.basicRow? j with
  | some row => analysis.changeBasicCost row cost changed steps
  | none =>
    let reduced :=
      reducedCost cost (analysis.tableau.column (analysis.variableColumn j)) analysis.basicCosts
    let steps := steps ++
      [.calculation ("c' - C_B·B⁻¹a for " ++ name ++ " = " ++ reduced.text)]
    if analysis.improves reduced then
      analysis.resolve changed steps (improvementReason name)
    else
      return preserve changed steps (name ++ " stays nonbasic, the solution is unchanged")
        analysis.objectiveValue analysis.values

/-- What if there is one more constraint? -/
def addConstraint (analysis : Sensitivity α) (constraint : Constraint α) :
    Except ProblemError (WhatIfAnswer α) := do
  let _ ← analysis.newCoefficients constraint
  let changed := analysis.problem.addConstraint constraint
  let values := analysis.values
  let steps : List (Remark α) :=
    [.info ("Adding " ++ constraint.name ++ ": " ++
        constraint.formula analysis.problem.variableNames),
      .calculation ("At the current optimum the left-hand side is " ++
        numberText (constraint.lhs values) ++ " (right-hand side " ++
        numberText constraint.rhs ++ ")")]
  if constraint.isSatisfiedBy values then
    return preserve changed steps "The current optimum already satisfies the new constraint"
      analysis.objectiveValue values
  else analysis.resolve changed steps "The current optimum violates the new constraint"

/-- What if there is one more variable, with an objective coefficient and a coefficient for each
constraint? -/
def addVariable (analysis : Sensitivity α) (name : String) (coefficient : α) (column : List α) :
    Except ProblemError (WhatIfAnswer α) :=
  match vectorOf? analysis.form.numRows column with
  | none => .error (.dimension .newColumn analysis.problem.numRows column.length)
  | some entries =>
    if Scalar.isFinite coefficient && column.all Scalar.isFinite then
      let changed := analysis.problem.addVariable name coefficient column
      let direction := analysis.price entries
      let reduced := reducedCost (.ofScalar (analysis.problem.sense.orient coefficient)) direction
        analysis.basicCosts
      let steps : List (Remark α) :=
        [.info ("Adding variable " ++ name ++ " with objective coefficient " ++
            numberText coefficient),
          .vector ("B⁻¹a(" ++ name ++ ")") direction.toList,
          .calculation ("c - C_B·B⁻¹a for " ++ name ++ " = " ++ reduced.text)]
      if analysis.improves reduced then
        analysis.resolve changed steps (name ++ " improves the objective, it enters the basis")
      else
        .ok (preserve changed (steps ++ [.info (name ++ " = 0")])
          (name ++ " is not worth producing, the basis remains optimal") analysis.objectiveValue
          (analysis.values ++ [0]))
    else .error (.nonFinite (.variable name))

end Sensitivity

end LinearProgramming
