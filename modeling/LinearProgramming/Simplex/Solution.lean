/-
This file holds what a finished tableau run hands to its caller.
-/

import LinearProgramming.Extended
import LinearProgramming.Simplex.Step
import LinearProgramming.Status

namespace LinearProgramming

/-- The result of a run: the values of the variables and the objective in the author's sense, or
the reason why there are none. -/
inductive Outcome (α : Type) where
  | optimal (values : List α) (objective : α)
  | infeasible
  | unbounded (sense : Sense)
  | notConverged

namespace Outcome

variable {α : Type}

/-- The kind of the result. -/
def status : Outcome α → Status
  | optimal _ _ => .optimal
  | infeasible => .infeasible
  | unbounded _ => .unbounded
  | notConverged => .notConverged

/-- The values of the variables, none unless the result is optimal. -/
def values : Outcome α → List α
  | optimal values _ => values
  | _ => []

/-- The objective, infinite where it has no bound and undefined where nothing is known. -/
def objectiveValue : Outcome α → Option (Extended α)
  | optimal _ objective => some (.finite objective)
  | unbounded .maximize => some .posInf
  | unbounded .minimize => some .negInf
  | infeasible | notConverged => none

end Outcome

/-- A finished run: its standard form, its steps, its outcome and the number of pivots. -/
structure Solution (α : Type) where
  form : StandardForm α
  earlierSteps : Array (Step α form.numRows form.numColumns)
  finalStep : Step α form.numRows form.numColumns
  outcome : Outcome α
  iterations : Nat

namespace Solution

variable {α : Type}

/-- The steps in order. -/
def steps (solution : Solution α) :
    List (Step α solution.form.numRows solution.form.numColumns) :=
  solution.earlierSteps.toList ++ [solution.finalStep]

/-- How the run ended. -/
def status (solution : Solution α) : Status := solution.outcome.status

/-- The run ended with an optimal point. -/
def isOptimal (solution : Solution α) : Bool := solution.status == .optimal

end Solution

end LinearProgramming
