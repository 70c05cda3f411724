/-
This file holds the answer to a what-if question: the considerations in order, the new optimum,
and the changed problem.
-/

import LinearProgramming.BigM.Text
import LinearProgramming.Simplex.Solution
import LinearProgramming.Table

namespace LinearProgramming

/-- One consideration of a what-if analysis. -/
inductive Remark (α : Type) where
  | info (text : String)
  | calculation (text : String)
  | matrix (label : String) (table : Table α)
  | vector (label : String) (numbers : List α)
  | verdict (preserved : Bool) (message : String)

/-- The new optimum: at the old basis, or from a fresh run. -/
inductive NewOptimum (α : Type) where
  | preserved (objective : α) (values : List α)
  | resolved (solution : Solution α)

/-- The answer to a what-if question. -/
structure WhatIfAnswer (α : Type) where
  steps : List (Remark α)
  optimum : NewOptimum α
  problem : Problem α

variable {α : Type}

/-- The consideration in words. -/
def Remark.text [Scalar α] : Remark α → String
  | info text | calculation text => text
  | matrix label table =>
    label ++ " =" ++ String.join (table.toLists.map fun row => "\n  " ++ vectorText row)
  | vector label numbers => label ++ " = " ++ vectorText numbers
  | verdict true message => "[basis preserved] " ++ message
  | verdict false message => "[re-solve] " ++ message

namespace WhatIfAnswer

/-- The old basis is still optimal. -/
def isPreserved (answer : WhatIfAnswer α) : Bool :=
  match answer.optimum with
  | .preserved _ _ => true
  | .resolved _ => false

/-- The new objective in the author's sense. -/
def objectiveValue (answer : WhatIfAnswer α) : Option (Extended α) :=
  match answer.optimum with
  | .preserved objective _ => some (.finite objective)
  | .resolved solution => solution.outcome.objectiveValue

/-- The new values of the variables. -/
def values (answer : WhatIfAnswer α) : List α :=
  match answer.optimum with
  | .preserved _ values => values
  | .resolved solution => solution.outcome.values

end WhatIfAnswer

end LinearProgramming
