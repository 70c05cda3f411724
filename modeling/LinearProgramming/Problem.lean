/-
This file holds linear programs as their author writes them down.

A problem is a list of variable names, an objective with a sense, and a list of constraints.
Nothing is checked while it is built: lengths and numbers are the business of validation, and
every function here is defined for ragged problems too.
-/

import LinearProgramming.Scalar

namespace LinearProgramming

/-! ### Relations and senses -/

/-- How the left-hand side of a constraint relates to its right-hand side. -/
inductive Relation where
  | atMost
  | atLeast
  | equal
  deriving DecidableEq, Repr

/-- Whether the objective is to be made large or small. -/
inductive Sense where
  | maximize
  | minimize
  deriving DecidableEq, Repr

namespace Relation

/-- The relation that holds after both sides change their sign. -/
def flipped : Relation → Relation
  | atMost => atLeast
  | atLeast => atMost
  | equal => equal

/-- The mathematical sign of the relation. -/
def symbol : Relation → String
  | atMost => "≤"
  | atLeast => "≥"
  | equal => "="

end Relation

variable {α : Type}

/-- A number of the author's sense as one to be made large, and back: it changes its sign where
the sense is to minimize. -/
def Sense.orient [Scalar α] (sense : Sense) (number : α) : α :=
  match sense with
  | maximize => number
  | minimize => -number

/-! ### Problems -/

/-- One row of a problem: coefficients by variable, a relation and a right-hand side. -/
structure Constraint (α : Type) where
  name : String
  coefficients : List α
  relation : Relation
  rhs : α
  deriving BEq, DecidableEq

/-- A linear program over non-negative variables. -/
structure Problem (α : Type) where
  variableNames : List String
  objective : List α
  sense : Sense
  constraints : List (Constraint α)
  deriving BEq, DecidableEq

namespace Constraint

variable [Scalar α]

/-- The left-hand side at a point. -/
def lhs (constraint : Constraint α) (point : List α) : α :=
  Scalar.dot constraint.coefficients point

/-- The constraint holds at a point up to the default tolerance. -/
def isSatisfiedBy (constraint : Constraint α) (point : List α) : Bool :=
  let left := constraint.lhs point
  match constraint.relation with
  | .atMost => left ≤ constraint.rhs + Scalar.epsilon
  | .atLeast => constraint.rhs - Scalar.epsilon ≤ left
  | .equal => Scalar.abs (left - constraint.rhs) ≤ Scalar.epsilon

end Constraint

namespace Problem

/-- The number of variables. -/
def numVars (problem : Problem α) : Nat := problem.variableNames.length

/-- The number of constraints. -/
def numRows (problem : Problem α) : Nat := problem.constraints.length

/-- The name of a variable. -/
def variableName (problem : Problem α) (j : Fin problem.numVars) : String :=
  problem.variableNames.get j

/-! ### Building a problem -/

/-- The problem over given variables with a zero objective and no constraints. -/
def ofVariables [Zero α] (names : List String) : Problem α :=
  ⟨names, List.replicate names.length 0, .maximize, []⟩

/-- The names `x1`, `x2` and so on. -/
def numberedNames (count : Nat) : List String :=
  (List.range count).map fun index => s!"x{index + 1}"

/-- The problem over the variables `x1`, `x2` and so on. -/
def withVariables [Zero α] (count : Nat) : Problem α := ofVariables (numberedNames count)

/-- The problem with another objective. -/
def setObjective (problem : Problem α) (objective : List α) (sense : Sense) : Problem α :=
  { problem with objective, sense }

/-- The problem with one more constraint at the end. -/
def addConstraint (problem : Problem α) (constraint : Constraint α) : Problem α :=
  { problem with constraints := problem.constraints ++ [constraint] }

/-- The name of the constraint at a position counted from zero. -/
def defaultName (position : Nat) : String := s!"c{position + 1}"

/-- The problem with one more constraint, named by its position. -/
def constrain (problem : Problem α) (coefficients : List α) (relation : Relation) (rhs : α) :
    Problem α :=
  problem.addConstraint ⟨defaultName problem.constraints.length, coefficients, relation, rhs⟩

/-- The problem with other constraints. -/
def withConstraints (problem : Problem α) (constraints : List (Constraint α)) : Problem α :=
  { problem with constraints }

/-! ### Its objective -/

variable [Scalar α]

/-- The objective coefficients with their signs set for maximizing. -/
def maxObjective (problem : Problem α) : List α := problem.objective.map problem.sense.orient

/-- The objective at a point. -/
def evaluate (problem : Problem α) (point : List α) : α := Scalar.dot problem.objective point

end Problem

end LinearProgramming
