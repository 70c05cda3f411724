/-
This file answers what-if questions on lists and tables of any size.

A question names a constraint or a variable by its number and brings numbers of its own. The number
and the count of the coefficients are checked first; an answer then writes into a copy of the
problem, prices columns with the inverse and looks up names and costs. After the checks nothing is
missed: the changed problem keeps its shape, so it has a column for every variable, with one number
for each row.
-/

import LinearProgramming.Proofs.Bounds.Analysis
import LinearProgramming.Proofs.Sensitivity.ChangedProblem

namespace LinearProgramming

variable {α : Type}

namespace Bare

/-! ### Answers -/

/-- The new optimum: at the old basis, or from a fresh run. -/
inductive NewOptimum (α : Type) where
  | preserved (objective : α) (values : List α)
  | resolved (solution : Solution α)

/-- The answer to a question. -/
structure Answer (α : Type) where
  steps : List (Remark α)
  optimum : NewOptimum α
  problem : Problem α

/-- The answer that the old basis is still optimal. -/
def preserve (problem : Problem α) (steps : List (Remark α)) (message : String) (objective : α)
    (values : List α) : Answer α :=
  ⟨steps ++ [.verdict true message], .preserved objective values, problem⟩

/-- The problem with one constraint replaced. -/
def replaceRow? (problem : Problem α) (row : Nat) (constraint : Constraint α) :
    Option (Problem α) := do
  return problem.withConstraints (← setAt? problem.constraints row constraint)

variable [Scalar α]

namespace Analysis

/-! ### Pricing -/

/-- A column with the signs of the rows applied. -/
def oriented (analysis : Analysis α) (column : List α) : List α :=
  List.zipWith (· * ·) column analysis.form.rowSigns

/-- The inverse times a column as the author wrote it. -/
def price? (analysis : Analysis α) (column : List α) : Option (List α) :=
  analysis.inverse.mulList? (analysis.oriented column)

/-- A cost less that of the basic columns a direction would replace. -/
def reducedCost (cost : BigM α) (direction : List α) (basicCosts : List (BigM α)) : BigM α :=
  cost - BigM.dot basicCosts direction

/-- A column with a given reduced cost would improve the objective. -/
def improves (analysis : Analysis α) (reduced : BigM α) : Bool :=
  (0 : BigM α).lessWithin analysis.tolerance reduced

/-- The basis is feasible at given levels. -/
def isFeasible? (analysis : Analysis α) (levels : List α) : Option Bool :=
  (List.range levels.length).allM fun row => do
    let level ← levels[row]?
    if ← analysis.form.isArtificial? (← analysis.tableau.basis[row]?) then
      return Scalar.abs level ≤ analysis.tolerance
    else return -analysis.tolerance ≤ level

/-- The objective at given levels in the author's sense. -/
def objectiveAt? (analysis : Analysis α) (levels : List α) : Option α := do
  return analysis.problem.sense.orient
    (Scalar.dot ((← analysis.basicCosts?).map BigM.value) levels)

/-- Looks at named reduced costs in order up to the first that improves the objective. -/
def firstImproving (analysis : Analysis α) (formula : String) :
    List (String × BigM α) → List (Remark α) × Option String
  | [] => ([], none)
  | (name, reduced) :: rest =>
    let step := Remark.calculation (formula ++ " for " ++ name ++ " = " ++ reduced.text)
    if analysis.improves reduced then ([step], some name)
    else
      let (steps, found) := analysis.firstImproving formula rest
      (step :: steps, found)

/-- The answer from a fresh run on the changed problem. -/
def resolve? (analysis : Analysis α) (problem : Problem α) (steps : List (Remark α))
    (reason : String) : Option (Except ProblemError (Answer α)) := do
  match ← solve? analysis.solver problem with
  | .error fault => return .error fault
  | .ok solution =>
    let summary := "Full re-solve: " ++ solution.outcome.status.text ++
      s!" after {solution.iterations} iterations"
    return .ok ⟨steps ++ [.verdict false reason, .info summary], .resolved solution, problem⟩

/-- The answer that nothing about the optimum has changed. -/
def keep? (analysis : Analysis α) (problem : Problem α) (steps : List (Remark α))
    (message : String) : Option (Except ProblemError (Answer α)) := do
  return .ok (preserve problem steps message (← analysis.objectiveValue?) (← analysis.values?))

/-! ### Questions -/

/-- Another right-hand side of a constraint. -/
def changeRhs? (analysis : Analysis α) (number : Nat) (rhs : α) :
    Option (Except ProblemError (Answer α)) :=
  if number < analysis.problem.numRows then do
    let old ← analysis.problem.constraints[number]?
    let changed ← replaceRow? analysis.problem number { old with rhs }
    let column := changed.constraints.map Constraint.rhs
    let levels ← analysis.price? column
    let steps : List (Remark α) :=
      [.info ("Changing the right-hand side of " ++ old.name ++ " from " ++ numberText old.rhs ++
          " to " ++ numberText rhs),
        .vector "b'" (analysis.oriented column),
        .matrix "B⁻¹" analysis.inverse,
        .vector "xB' = B⁻¹b'" levels]
    if ← analysis.isFeasible? levels then
      let objective ← analysis.objectiveAt? levels
      return .ok (preserve changed
        (steps ++ [.calculation ("Z' = C_B·xB' = " ++ numberText objective)])
        "All basic variables stay non-negative, the basis remains optimal" objective
        (← analysis.valuesAt? levels))
    else analysis.resolve? changed steps Sensitivity.infeasibilityReason
  else some (.error (.constraintIndex number analysis.problem.numRows))

/-- The inverse times the column of a variable in a changed problem. -/
def direction? (analysis : Analysis α) (changed : Problem α) (number : Nat) :
    Option (List α) := do
  analysis.price? (← changed.constraints.mapM fun constraint => constraint.coefficients[number]?)

/-- Another coefficient of a variable in a constraint. -/
def changeCoefficient? (analysis : Analysis α) (rowNumber variableNumber : Nat) (coefficient : α) :
    Option (Except ProblemError (Answer α)) :=
  if rowNumber < analysis.problem.numRows then
    if variableNumber < analysis.problem.numVars then do
      let old ← analysis.problem.constraints[rowNumber]?
      let current ← old.coefficients[variableNumber]?
      let coefficients ← setAt? old.coefficients variableNumber coefficient
      let changed ← replaceRow? analysis.problem rowNumber { old with coefficients }
      let name ← analysis.problem.variableNames[variableNumber]?
      let steps : List (Remark α) :=
        [.info ("Changing the coefficient of " ++ name ++ " in " ++ old.name ++ " from " ++
          numberText current ++ " to " ++ numberText coefficient)]
      if analysis.isBasic variableNumber then
        analysis.resolve? changed steps (name ++ " is basic, so the basis matrix itself changes")
      else
        let direction ← analysis.direction? changed variableNumber
        let reduced := reducedCost (← analysis.form.costs[variableNumber]?) direction
          (← analysis.basicCosts?)
        let steps := steps ++
          [.vector ("B⁻¹a'(" ++ name ++ ")") direction,
            .calculation ("c - C_B·B⁻¹a' for " ++ name ++ " = " ++ reduced.text)]
        if analysis.improves reduced then
          analysis.resolve? changed steps (Sensitivity.improvementReason name)
        else
          analysis.keep? changed steps (name ++ " stays nonbasic, the solution is unchanged")
    else some (.error (.variableIndex variableNumber analysis.problem.numVars))
  else some (.error (.constraintIndex rowNumber analysis.problem.numRows))

/-- The variables whose coefficients in two constraints differ by more than the tolerance. -/
def movedVariables? (analysis : Analysis α) (old new : Constraint α) : Option (List Nat) :=
  (List.range analysis.problem.numVars).filterM fun j => do
    return analysis.tolerance <
      Scalar.abs ((← old.coefficients[j]?) - (← new.coefficients[j]?))

/-- The name of a variable with its reduced cost in a changed problem. -/
def repriced? (analysis : Analysis α) (changed : Problem α) (number : Nat) :
    Option (String × BigM α) := do
  let name ← analysis.problem.variableNames[number]?
  return (name, reducedCost (← analysis.form.costs[number]?)
    (← analysis.direction? changed number) (← analysis.basicCosts?))

/-- Another constraint in the place of one. -/
def changeRow? (analysis : Analysis α) (number : Nat) (constraint : Constraint α) :
    Option (Except ProblemError (Answer α)) :=
  if number < analysis.problem.numRows then
    if constraint.coefficients.length = analysis.problem.numVars then do
      let old ← analysis.problem.constraints[number]?
      let changed ← replaceRow? analysis.problem number constraint
      let names := analysis.problem.variableNames
      let steps : List (Remark α) :=
        [.info ("Replacing " ++ old.name ++ ": " ++ old.formula names ++ " with " ++
          constraint.formula names)]
      let flips : Bool := constraint.rhs < 0
      let flipped : Bool := old.rhs < 0
      if old.relation ≠ constraint.relation ∨ flips ≠ flipped then
        analysis.resolve? changed steps "The relation changed, so the standard form changes"
      else
        let moved ← analysis.movedVariables? old constraint
        match moved.find? analysis.isBasic with
        | some j =>
          let name ← analysis.problem.variableNames[j]?
          analysis.resolve? changed steps
            ("The coefficient of basic variable " ++ name ++ " changed")
        | none =>
          let levels ← analysis.price? (changed.constraints.map Constraint.rhs)
          let steps := steps ++ [.vector "xB' = B⁻¹b'" levels]
          if ← analysis.isFeasible? levels then
            let (prices, improving) := analysis.firstImproving "c - C_B·B⁻¹a'"
              (← moved.mapM (analysis.repriced? changed))
            match improving with
            | some name =>
              analysis.resolve? changed (steps ++ prices) (Sensitivity.improvementReason name)
            | none =>
              return .ok (preserve changed (steps ++ prices) "The basis stays feasible and optimal"
                (← analysis.objectiveAt? levels) (← analysis.valuesAt? levels))
          else analysis.resolve? changed steps Sensitivity.infeasibilityReason
    else
      some (.error (.coefficientCount constraint.name analysis.problem.numVars
        constraint.coefficients.length))
  else some (.error (.constraintIndex number analysis.problem.numRows))

/-- The entries of the constraint rows under a column. -/
def column? (analysis : Analysis α) (number : Nat) : Option (List α) :=
  (List.range analysis.form.a.rowCount).mapM fun row => analysis.tableau.entryAt? row number

/-- The name of a column with its reduced cost when the basic columns have given costs. -/
def priced? (analysis : Analysis α) (basicCosts : List (BigM α)) (number : Nat) :
    Option (String × BigM α) := do
  let name ← analysis.form.names[number]?
  return (name, reducedCost (← analysis.form.costs[number]?) (← analysis.column? number) basicCosts)

/-- Another objective coefficient of the variable that is basic in a row. -/
def changeBasicCost? (analysis : Analysis α) (row : Nat) (cost : BigM α) (changed : Problem α)
    (steps : List (Remark α)) : Option (Except ProblemError (Answer α)) := do
  let basicCosts ← setAt? (← analysis.basicCosts?) row cost
  let steps := steps ++ [.vector "C_B'" (basicCosts.map BigM.value)]
  let (prices, improving) := analysis.firstImproving "c - C_B'·B⁻¹a"
    (← (← analysis.candidates?).mapM (analysis.priced? basicCosts))
  match improving with
  | some name => analysis.resolve? changed (steps ++ prices) (Sensitivity.improvementReason name)
  | none =>
    let values ← analysis.values?
    return .ok (preserve changed (steps ++ prices)
      "No nonbasic variable can improve the objective, the basis remains optimal"
      (changed.evaluate values) values)

/-- Another objective coefficient of a variable. -/
def changeCost? (analysis : Analysis α) (number : Nat) (coefficient : α) :
    Option (Except ProblemError (Answer α)) :=
  if number < analysis.problem.numVars then do
    let current ← analysis.problem.objective[number]?
    let changed : Problem α :=
      { analysis.problem with objective := ← setAt? analysis.problem.objective number coefficient }
    let name ← analysis.problem.variableNames[number]?
    let cost := BigM.ofScalar (analysis.problem.sense.orient coefficient)
    let steps : List (Remark α) :=
      [.info ("Changing the objective coefficient of " ++ name ++ " from " ++
        numberText current ++ " to " ++ numberText coefficient)]
    match analysis.tableau.basicRow? number with
    | some row => analysis.changeBasicCost? row cost changed steps
    | none =>
      let reduced := reducedCost cost (← analysis.column? number) (← analysis.basicCosts?)
      let steps := steps ++
        [.calculation ("c' - C_B·B⁻¹a for " ++ name ++ " = " ++ reduced.text)]
      if analysis.improves reduced then
        analysis.resolve? changed steps (Sensitivity.improvementReason name)
      else
        analysis.keep? changed steps (name ++ " stays nonbasic, the solution is unchanged")
  else some (.error (.variableIndex number analysis.problem.numVars))

/-- One more constraint. -/
def addConstraint? (analysis : Analysis α) (constraint : Constraint α) :
    Option (Except ProblemError (Answer α)) :=
  if constraint.coefficients.length = analysis.problem.numVars then do
    let changed := analysis.problem.addConstraint constraint
    let values ← analysis.values?
    let steps : List (Remark α) :=
      [.info ("Adding " ++ constraint.name ++ ": " ++
          constraint.formula analysis.problem.variableNames),
        .calculation ("At the current optimum the left-hand side is " ++
          numberText (constraint.lhs values) ++ " (right-hand side " ++
          numberText constraint.rhs ++ ")")]
    if constraint.isSatisfiedBy values then
      analysis.keep? changed steps "The current optimum already satisfies the new constraint"
    else analysis.resolve? changed steps "The current optimum violates the new constraint"
  else
    some (.error (.coefficientCount constraint.name analysis.problem.numVars
      constraint.coefficients.length))

/-- One more variable, with an objective coefficient and a coefficient for each constraint. -/
def addVariable? (analysis : Analysis α) (name : String) (coefficient : α) (column : List α) :
    Option (Except ProblemError (Answer α)) :=
  if column.length = analysis.problem.numRows then
    if Scalar.isFinite coefficient && column.all Scalar.isFinite then do
      let changed := analysis.problem.addVariable name coefficient column
      let direction ← analysis.price? column
      let reduced := reducedCost (.ofScalar (analysis.problem.sense.orient coefficient)) direction
        (← analysis.basicCosts?)
      let steps : List (Remark α) :=
        [.info ("Adding variable " ++ name ++ " with objective coefficient " ++
            numberText coefficient),
          .vector ("B⁻¹a(" ++ name ++ ")") direction,
          .calculation ("c - C_B·B⁻¹a for " ++ name ++ " = " ++ reduced.text)]
      if analysis.improves reduced then
        analysis.resolve? changed steps (name ++ " improves the objective, it enters the basis")
      else
        return .ok (preserve changed (steps ++ [.info (name ++ " = 0")])
          (name ++ " is not worth producing, the basis remains optimal")
          (← analysis.objectiveValue?) ((← analysis.values?) ++ [0]))
    else some (.error (.nonFinite (.variable name)))
  else some (.error (.dimension .newColumn analysis.problem.numRows column.length))

end Analysis

end Bare

/-! ### The parts of an answer -/

variable [Scalar α]

/-- The parts of a new optimum. -/
def NewOptimum.bare : NewOptimum α → Bare.NewOptimum α
  | preserved objective values => .preserved objective values
  | resolved solution => .resolved solution.bare

/-- The parts of an answer. -/
def WhatIfAnswer.bare (answer : WhatIfAnswer α) : Bare.Answer α where
  steps := answer.steps
  optimum := answer.optimum.bare
  problem := answer.problem

namespace Sensitivity

variable (analysis : Sensitivity α)

/-! ### Prices that succeed -/

theorem oriented_bare (column : Vector α analysis.form.numRows) :
    analysis.bare.oriented column.toList = (analysis.oriented column).toList :=
  Vector.toList_zipWith.symm

theorem price?_bare (column : Vector α analysis.form.numRows) :
    analysis.bare.price? column.toList = some (analysis.price column).toList := by
  rw [Bare.Analysis.price?, oriented_bare]
  exact Table.mulList?_entries analysis.inverse (analysis.oriented column)

theorem improves_bare (reduced : BigM α) :
    analysis.bare.improves reduced = analysis.improves reduced := rfl

theorem isFeasible?_bare (levels : Vector α analysis.form.numRows) :
    analysis.bare.isFeasible? levels.toList = some (analysis.isFeasible levels) := by
  rw [Bare.Analysis.isFeasible?, levels.length_toList]
  refine allM_range fun row => ?_
  rw [getElem?_toList, tableau_bare, Tableau.getElem?_basis]
  simp only [form_bare, StandardForm.isArtificial?_bare, tolerance_bare, Option.bind_eq_bind,
    Option.bind_some]
  cases analysis.form.isArtificial (analysis.tableau.basis.get row) <;> rfl

theorem objectiveAt?_bare (levels : Vector α analysis.form.numRows) :
    analysis.bare.objectiveAt? levels.toList = some (analysis.objectiveAt levels) := by
  rw [Bare.Analysis.objectiveAt?, basicCosts?_bare]
  rfl

theorem firstImproving_bare (formula : String) (entries : List (String × BigM α)) :
    analysis.bare.firstImproving formula entries = analysis.firstImproving formula entries := by
  induction entries with
  | nil => rfl
  | cons first rest inductionHypothesis =>
    rw [Bare.Analysis.firstImproving, firstImproving, inductionHypothesis, improves_bare]

theorem resolve?_bare (problem : Problem α) (steps : List (Remark α)) (reason : String) :
    analysis.bare.resolve? problem steps reason =
      some ((analysis.resolve problem steps reason).map WhatIfAnswer.bare) := by
  rw [Bare.Analysis.resolve?, resolve]
  show (Bare.solve? analysis.solver problem).bind _ = _
  rw [Solver.solve?_bare, Option.bind_some]
  cases analysis.solver.solve problem <;> rfl

theorem keep?_bare (problem : Problem α) (steps : List (Remark α)) (message : String) :
    analysis.bare.keep? problem steps message =
      some (.ok (preserve problem steps message analysis.objectiveValue analysis.values).bare) := by
  rw [Bare.Analysis.keep?, objectiveValue?_bare, values?_bare]
  rfl

omit analysis in
/-- Two answers that depend on one condition. -/
theorem if_bare {condition : Prop} [Decidable condition]
    {first second : Option (Except ProblemError (Bare.Answer α))}
    {left right : Except ProblemError (WhatIfAnswer α)}
    (leftAnswer : first = some (left.map WhatIfAnswer.bare))
    (rightAnswer : second = some (right.map WhatIfAnswer.bare)) :
    (if condition then first else second) =
      some ((if condition then left else right).map WhatIfAnswer.bare) := by
  split
  · exact leftAnswer
  · exact rightAnswer

/-! ### Checks of the arguments -/

section Checks

variable {analysis}

theorem rowIndex_bind (number : Nat) {rest : Option (Except ProblemError (Bare.Answer α))}
    {next : Fin analysis.form.numRows → Except ProblemError (WhatIfAnswer α)}
    (follows : ∀ row : Fin analysis.form.numRows, row.val = number →
      rest = some ((next row).map WhatIfAnswer.bare)) :
    (if number < analysis.problem.numRows then rest
      else some (.error (.constraintIndex number analysis.problem.numRows))) =
      some ((analysis.rowIndex number >>= next).map WhatIfAnswer.bare) := by
  unfold rowIndex
  split
  · exact follows _ rfl
  · rfl

theorem variableIndex_bind (number : Nat) {rest : Option (Except ProblemError (Bare.Answer α))}
    {next : Fin analysis.problem.numVars → Except ProblemError (WhatIfAnswer α)}
    (follows : ∀ j : Fin analysis.problem.numVars, j.val = number →
      rest = some ((next j).map WhatIfAnswer.bare)) :
    (if number < analysis.problem.numVars then rest
      else some (.error (.variableIndex number analysis.problem.numVars))) =
      some ((analysis.variableIndex number >>= next).map WhatIfAnswer.bare) := by
  unfold variableIndex
  split
  · exact follows _ rfl
  · rfl

theorem newCoefficients_bind (constraint : Constraint α)
    {rest : Option (Except ProblemError (Bare.Answer α))}
    {next : Vector α analysis.problem.numVars → Except ProblemError (WhatIfAnswer α)}
    (follows : ∀ coefficients : Vector α analysis.problem.numVars,
      coefficients.toList = constraint.coefficients →
        rest = some ((next coefficients).map WhatIfAnswer.bare)) :
    (if constraint.coefficients.length = analysis.problem.numVars then rest
      else some (.error (.coefficientCount constraint.name analysis.problem.numVars
        constraint.coefficients.length))) =
      some ((analysis.newCoefficients constraint >>= next).map WhatIfAnswer.bare) := by
  unfold newCoefficients vectorOf?
  split
  · exact follows _ rfl
  · rfl

end Checks

/-! ### Changed problems -/

theorem constraints_eq_ofFn {β : Type} (read : Constraint α → β) :
    analysis.problem.constraints.map read =
      List.ofFn fun row => read (analysis.constraint row) := by
  refine List.ext_getElem ?_ fun position _ _ => ?_
  · rw [List.length_map, List.length_ofFn]
    exact analysis.numRows_eq.symm
  · rw [List.getElem_map, List.getElem_ofFn]
    rfl

/-- What is read of every constraint changes in one row when that row is replaced. -/
theorem map_replaceRow {β : Type} (read : Constraint α → β) (row : Fin analysis.form.numRows)
    (constraint : Constraint α) :
    (analysis.problem.replaceRow row constraint).constraints.map read =
      (replaceEntry (Vector.ofFn fun row => read (analysis.constraint row)) row
        (read constraint)).toList := by
  show (analysis.problem.constraints.set row constraint).map read = _
  rw [List.map_set, constraints_eq_ofFn, replaceEntry, Vector.toList_set, Vector.toList_ofFn]

theorem replaceRow?_bare (row : Fin analysis.form.numRows) (constraint : Constraint α) :
    Bare.replaceRow? analysis.problem row constraint =
      some (analysis.problem.replaceRow row constraint) := by
  have inRange : row.val < analysis.problem.constraints.length :=
    row.isLt.trans_eq analysis.numRows_eq
  rw [Bare.replaceRow?, setAt?, if_pos inRange]
  rfl

/-- A number that is found in every constraint and in the one that replaces a row is found in all
constraints of the changed problem. -/
theorem mapM_replaceRow {β : Type} {read : Constraint α → Option β}
    {row : Fin analysis.form.numRows} {constraint : Constraint α}
    {entries : Vector β analysis.form.numRows} {entry : β}
    (old : ∀ i, read (analysis.constraint i) = some (entries.get i))
    (new : read constraint = some entry) :
    (analysis.problem.replaceRow row constraint).constraints.mapM read =
      some (replaceEntry entries row entry).toList := by
  refine mapM_of_map_eq ?_
  rw [map_replaceRow, new, funext old, replaceEntry, replaceEntry, Vector.toList_set,
    Vector.toList_set, List.map_set, Vector.toList_ofFn, toList_eq_ofFn entries, List.map_ofFn]
  rfl

theorem getElem?_coefficients (row : Fin analysis.form.numRows) (j : Fin analysis.problem.numVars) :
    (analysis.constraint row).coefficients[j.val]? = some ((analysis.coefficients j).get row) := by
  have fits := (analysis.valid.constraints_fit _ (List.get_mem analysis.problem.constraints
    (row.cast analysis.numRows_eq))).length
  rw [coefficients, get_vectorOfFn]
  exact List.getElem?_eq_getElem (j.isLt.trans_eq fits.symm)

theorem direction?_bare (row : Fin analysis.form.numRows) (constraint : Constraint α)
    (j : Fin analysis.problem.numVars) {coefficient : α}
    (entry : constraint.coefficients[j.val]? = some coefficient) :
    analysis.bare.direction? (analysis.problem.replaceRow row constraint) j =
      some (analysis.price (replaceEntry (analysis.coefficients j) row coefficient)).toList := by
  rw [Bare.Analysis.direction?, analysis.mapM_replaceRow
    (analysis.getElem?_coefficients · j) entry, Option.bind_eq_bind, Option.bind_some, price?_bare]

/-- The column of a variable has its cost in the form. -/
theorem getElem?_variableCost (j : Fin analysis.problem.numVars) :
    analysis.bare.form.costs[j.val]? =
      some (analysis.form.costs.get (analysis.variableColumn j)) :=
  StandardForm.getElem?_costs analysis.form (analysis.variableColumn j)

/-! ### Questions that are answered -/

theorem changeRhs?_bare (number : Nat) (rhs : α) :
    analysis.bare.changeRhs? number rhs =
      some ((analysis.changeRhs number rhs).map WhatIfAnswer.bare) := by
  refine rowIndex_bind number fun row place => ?_
  subst place
  have column : (analysis.problem.replaceRow row
      { analysis.constraint row with rhs }).constraints.map Constraint.rhs =
      (replaceEntry analysis.rightHandSides row rhs).toList :=
    analysis.map_replaceRow Constraint.rhs row { analysis.constraint row with rhs }
  have changed : analysis.problem.setRhs row rhs =
      analysis.problem.replaceRow row { analysis.constraint row with rhs } :=
    analysis.problem.setRhs_eq_replaceRow (row.cast analysis.numRows_eq) rhs
  rw [changed, getElem?_constraints, Option.bind_eq_bind, Option.bind_some]
  show (Bare.replaceRow? analysis.problem row _).bind _ = _
  rw [replaceRow?_bare, Option.bind_some]
  simp only [column, price?_bare, isFeasible?_bare, objectiveAt?_bare, valuesAt?_bare,
    resolve?_bare, oriented_bare, Option.bind_eq_bind, Option.bind_some]
  exact if_bare rfl rfl

theorem changeCoefficient?_bare (rowNumber variableNumber : Nat) (coefficient : α) :
    analysis.bare.changeCoefficient? rowNumber variableNumber coefficient =
      some ((analysis.changeCoefficient rowNumber variableNumber coefficient).map
        WhatIfAnswer.bare) := by
  refine rowIndex_bind rowNumber fun row rowPlace => ?_
  refine variableIndex_bind variableNumber fun j variablePlace => ?_
  subst rowPlace
  subst variablePlace
  obtain ⟨inRow, current⟩ := List.getElem?_eq_some_iff.1 (analysis.getElem?_coefficients row j)
  have written : setAt? (analysis.constraint row).coefficients j coefficient =
      some ((analysis.constraint row).coefficients.set j coefficient) := if_pos inRow
  have changed : analysis.problem.setCoefficient row j coefficient =
      analysis.problem.replaceRow row { analysis.constraint row with
        coefficients := (analysis.constraint row).coefficients.set j coefficient } :=
    analysis.problem.setCoefficient_eq_replaceRow (row.cast analysis.numRows_eq) j coefficient
  have direction := analysis.direction?_bare row { analysis.constraint row with
    coefficients := (analysis.constraint row).coefficients.set j coefficient } j
    (List.getElem?_set_self inRow)
  rw [changed, getElem?_constraints, Option.bind_eq_bind, Option.bind_some]
  simp only [getElem?_coefficients, written, Option.bind_eq_bind, Option.bind_some]
  show (Bare.replaceRow? analysis.problem row _).bind _ = _
  rw [replaceRow?_bare, Option.bind_some]
  simp only [getElem?_variableNames, isBasic_bare, direction, getElem?_variableCost,
    basicCosts?_bare, resolve?_bare, keep?_bare, Option.bind_some]
  exact if_bare rfl (if_bare rfl rfl)

theorem movedVariables?_bare (row : Fin analysis.form.numRows) (constraint : Constraint α)
    (coefficients : Vector α analysis.problem.numVars)
    (same : coefficients.toList = constraint.coefficients) :
    analysis.bare.movedVariables? (analysis.constraint row) constraint =
      some ((analysis.movedVariables row coefficients).map Fin.val) := by
  refine filterM_range fun (j : Fin analysis.problem.numVars) => ?_
  rw [getElem?_coefficients, ← same, getElem?_toList]
  rfl

theorem repriced?_bare (row : Fin analysis.form.numRows) (constraint : Constraint α)
    (coefficients : Vector α analysis.problem.numVars)
    (same : coefficients.toList = constraint.coefficients) (j : Fin analysis.problem.numVars) :
    analysis.bare.repriced? (analysis.problem.replaceRow row constraint) j =
      some (analysis.repriced row coefficients j) := by
  have entry : constraint.coefficients[j.val]? = some (coefficients.get j) := by
    rw [← same, getElem?_toList]
  rw [Bare.Analysis.repriced?, getElem?_variableNames, getElem?_variableCost,
    analysis.direction?_bare row constraint j entry, basicCosts?_bare]
  rfl

theorem changeRow?_bare (number : Nat) (constraint : Constraint α) :
    analysis.bare.changeRow? number constraint =
      some ((analysis.changeRow number constraint).map WhatIfAnswer.bare) := by
  refine rowIndex_bind number fun row place => ?_
  refine newCoefficients_bind constraint fun coefficients same => ?_
  subst place
  have column : (analysis.problem.replaceRow row constraint).constraints.map Constraint.rhs =
      (replaceEntry analysis.rightHandSides row constraint.rhs).toList :=
    analysis.map_replaceRow Constraint.rhs row constraint
  have moved := analysis.movedVariables?_bare row constraint coefficients same
  have basic : ((analysis.movedVariables row coefficients).map Fin.val).find?
      analysis.bare.isBasic = ((analysis.movedVariables row coefficients).find?
        fun (j : Fin analysis.problem.numVars) => analysis.tableau.isBasic j).map Fin.val := by
    rw [List.find?_map]
    exact congrArg (fun holds => ((analysis.movedVariables row coefficients).find? holds).map
      Fin.val) (funext fun j => analysis.isBasic_bare j)
  have prices : ((analysis.movedVariables row coefficients).map Fin.val).mapM
      (analysis.bare.repriced? (analysis.problem.replaceRow row constraint)) =
      some ((analysis.movedVariables row coefficients).map
        (analysis.repriced row coefficients)) := by
    rw [List.mapM_map]
    exact mapM_of_reads fun j _ => analysis.repriced?_bare row constraint coefficients same j
  rw [getElem?_constraints, Option.bind_eq_bind, Option.bind_some]
  show (Bare.replaceRow? analysis.problem row _).bind _ = _
  rw [replaceRow?_bare, Option.bind_some]
  simp only [column, moved, basic, prices, price?_bare, isFeasible?_bare, objectiveAt?_bare,
    valuesAt?_bare, firstImproving_bare, resolve?_bare, Option.bind_eq_bind, Option.bind_some]
  refine if_bare rfl ?_
  cases (analysis.movedVariables row coefficients).find?
      fun (j : Fin analysis.problem.numVars) => analysis.tableau.isBasic j with
  | some j =>
    simp only [Option.map_some, getElem?_variableNames, Option.bind_some]
    rfl
  | none =>
    refine if_bare ?_ rfl
    cases (analysis.firstImproving "c - C_B·B⁻¹a'" ((analysis.movedVariables row coefficients).map
      (analysis.repriced row coefficients))).2 <;> rfl

theorem column?_bare (column : Fin analysis.form.numColumns) :
    analysis.bare.column? column = some (analysis.tableau.column column).toList := by
  rw [Tableau.column, Vector.toList_ofFn]
  exact mapM_range fun row => Tableau.entryAt?_bare analysis.form.names analysis.tableau row column

theorem priced?_bare (basicCosts : Vector (BigM α) analysis.form.numRows)
    (column : Fin analysis.form.numColumns) :
    analysis.bare.priced? basicCosts.toList column =
      some (analysis.form.names.get column, reducedCost (analysis.form.costs.get column)
        (analysis.tableau.column column) basicCosts) := by
  rw [Bare.Analysis.priced?, form_bare, StandardForm.getElem?_names, StandardForm.getElem?_costs,
    column?_bare]
  rfl

theorem changeBasicCost?_bare (row : Fin analysis.form.numRows) (cost : BigM α)
    (changed : Problem α) (steps : List (Remark α)) :
    analysis.bare.changeBasicCost? row cost changed steps =
      some ((analysis.changeBasicCost row cost changed steps).map WhatIfAnswer.bare) := by
  have prices : (analysis.candidates.map Fin.val).mapM
      (analysis.bare.priced? (replaceEntry analysis.basicCosts row cost).toList) =
      some (analysis.candidates.map fun column =>
        (analysis.form.names.get column, reducedCost (analysis.form.costs.get column)
          (analysis.tableau.column column) (replaceEntry analysis.basicCosts row cost))) := by
    rw [List.mapM_map]
    exact mapM_of_reads fun column _ => analysis.priced?_bare _ column
  rw [Bare.Analysis.changeBasicCost?, basicCosts?_bare, Option.bind_eq_bind, Option.bind_some]
  simp only [setAt?_toList, candidates?_bare, prices, values?_bare, firstImproving_bare,
    resolve?_bare, Option.bind_eq_bind, Option.bind_some]
  unfold changeBasicCost
  dsimp only
  cases (analysis.firstImproving "c - C_B'·B⁻¹a" (analysis.candidates.map fun column =>
    (analysis.form.names.get column, reducedCost (analysis.form.costs.get column)
      (analysis.tableau.column column) (replaceEntry analysis.basicCosts row cost)))).2 <;> rfl

theorem changeCost?_bare (number : Nat) (coefficient : α) :
    analysis.bare.changeCost? number coefficient =
      some ((analysis.changeCost number coefficient).map WhatIfAnswer.bare) := by
  refine variableIndex_bind number fun j place => ?_
  subst place
  have inRange : j.val < analysis.problem.objective.length :=
    j.isLt.trans_eq analysis.valid.objective_length.symm
  have written : setAt? analysis.problem.objective j coefficient =
      some (analysis.problem.objective.set j coefficient) := if_pos inRange
  have direction : analysis.bare.column? j =
      some (analysis.tableau.column (analysis.variableColumn j)).toList :=
    analysis.column?_bare (analysis.variableColumn j)
  rw [getElem?_objective, Option.bind_eq_bind, Option.bind_some]
  show (setAt? analysis.problem.objective j coefficient).bind _ = _
  rw [written, Option.bind_some]
  simp only [getElem?_variableNames, tableau_bare, Tableau.basicRow?_bare, direction,
    basicCosts?_bare, resolve?_bare, keep?_bare, Option.bind_eq_bind, Option.bind_some]
  cases analysis.tableau.basicRow? j with
  | some row => exact analysis.changeBasicCost?_bare row _ _ _
  | none => exact if_bare rfl rfl

theorem addConstraint?_bare (constraint : Constraint α) :
    analysis.bare.addConstraint? constraint =
      some ((analysis.addConstraint constraint).map WhatIfAnswer.bare) := by
  refine newCoefficients_bind constraint fun coefficients same => ?_
  simp only [values?_bare, resolve?_bare, keep?_bare, Option.bind_eq_bind, Option.bind_some]
  exact if_bare rfl rfl

theorem addVariable?_bare (name : String) (coefficient : α) (column : List α) :
    analysis.bare.addVariable? name coefficient column =
      some ((analysis.addVariable name coefficient column).map WhatIfAnswer.bare) := by
  rw [Bare.Analysis.addVariable?, addVariable]
  show (if column.length = analysis.problem.numRows then _ else _) = _
  by_cases measured : column.length = analysis.form.numRows
  · -- the column is checked against the problem and priced with the rows of the form
    have entries : vectorOf? analysis.form.numRows column =
        some ⟨column.toArray, by simpa using measured⟩ := dif_pos measured
    rw [if_pos (analysis.numRows_eq ▸ measured), entries]
    generalize taken : (⟨column.toArray, _⟩ : Vector α analysis.form.numRows) = vector
    have same : vector.toList = column := by rw [← taken]; rfl
    have direction := analysis.price?_bare vector
    rw [same] at direction
    simp only [direction, basicCosts?_bare, objectiveValue?_bare, values?_bare, resolve?_bare,
      Option.bind_eq_bind, Option.bind_some]
    exact if_bare (if_bare rfl rfl) rfl
  · have unmeasured : vectorOf? analysis.form.numRows column = none := dif_neg measured
    rw [if_neg (analysis.numRows_eq ▸ measured), unmeasured]
    rfl

end Sensitivity

end LinearProgramming
