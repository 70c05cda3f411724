/-
This file lists the reasons for which a problem or a question about it is refused.
-/

import LinearProgramming.Status

namespace LinearProgramming

/-- Where a number that is not finite was found. -/
inductive NumberPlace where
  | objective
  | constraint (name : String)
  | variable (name : String)
  deriving DecidableEq, Repr

/-- The list or matrix side whose length is wrong. -/
inductive Extent where
  | costs
  | rightHandSide
  | inverseRows
  | inverseColumns
  | basis
  | columnNames
  | solvedVariables
  | solvedConstraints
  | newColumn
  deriving DecidableEq, Repr

/-- The reasons for which a problem or a question about it is refused. -/
inductive ProblemError where
  | noVariables
  | objectiveLength (expected found : Nat)
  | coefficientCount (constraint : String) (expected found : Nat)
  | nonFinite (place : NumberPlace)
  | dimension (extent : Extent) (expected found : Nat)
  | integerMaskLength (expected found : Nat)
  | constraintIndex (index count : Nat)
  | variableIndex (index count : Nat)
  | notOptimal (status : Status)
  | problemMismatch
  deriving DecidableEq, Repr

/-- The place in words. -/
def NumberPlace.text : NumberPlace → String
  | objective => "objective"
  | constraint name => "constraint " ++ name
  | «variable» name => "variable " ++ name

/-- The list or matrix side in words. -/
def Extent.text : Extent → String
  | costs => "cost vector"
  | rightHandSide => "right-hand side"
  | inverseRows => "basis inverse rows"
  | inverseColumns => "basis inverse columns"
  | basis => "basis"
  | columnNames => "column names"
  | solvedVariables => "solved problem variables"
  | solvedConstraints => "solved problem constraints"
  | newColumn => "new variable column"

/-- The reason as a sentence. -/
def ProblemError.message : ProblemError → String
  | noVariables => "Problem has no variables"
  | objectiveLength expected found =>
    s!"Objective has {found} coefficients, expected {expected}"
  | coefficientCount constraint expected found =>
    s!"Constraint {constraint} has {found} coefficients, expected {expected}"
  | nonFinite place => "Non-finite number in " ++ place.text
  | dimension extent expected found =>
    s!"{extent.text} has size {found}, expected {expected}"
  | integerMaskLength expected found =>
    s!"Integrality mask has {found} entries, expected {expected}"
  | constraintIndex index count =>
    s!"Constraint index {index} out of range (problem has {count} constraints)"
  | variableIndex index count =>
    s!"Variable index {index} out of range (problem has {count} variables)"
  | notOptimal status =>
    s!"Sensitivity analysis needs an optimal solution, solver status is {status.word}"
  | problemMismatch =>
    "The solved tableau belongs to a different problem than the one analyzed"

end LinearProgramming
