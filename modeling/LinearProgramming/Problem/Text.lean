/-
This file writes constraints and objectives as formulas, such as `3x1 - x2 ≥ 2.5`.

Coefficients that are zero are left out, and so is the factor one.
-/

import LinearProgramming.BigM.Text
import LinearProgramming.Problem

namespace LinearProgramming

variable {α : Type} [Scalar α]

/-- A formula with one more term. The sign of the first term stands directly before it. -/
def appendTerm (formula : String) (coefficient : α) (name : String) : String :=
  let size := Scalar.abs coefficient
  let factor := if Scalar.abs (size - 1) ≤ Scalar.epsilon then "" else numberText size
  if formula.isEmpty then (if coefficient < 0 then "-" else "") ++ factor ++ name
  else formula ++ (if coefficient < 0 then " - " else " + ") ++ factor ++ name

/-- The sum of coefficients times names. A coefficient without a name stands before a question
mark, and a sum without terms is zero. -/
def linearText (coefficients : List α) (names : List String) : String :=
  let formula := coefficients.zipIdx.foldl (fun formula term =>
    if Scalar.abs term.1 ≤ Scalar.epsilon then formula
    else appendTerm formula term.1 (names[term.2]?.getD "?")) ""
  if formula.isEmpty then "0" else formula

/-- The constraint as a formula over given variable names. -/
def Constraint.formula (constraint : Constraint α) (names : List String) : String :=
  linearText constraint.coefficients names ++ " " ++ constraint.relation.symbol ++ " " ++
    numberText constraint.rhs

/-- Characters given in reverse, without the copies of a text at their front. The bound is on
the number of copies. -/
def dropCopies (reversedText : List Char) : Nat → List Char → List Char
  | 0, characters => characters
  | copies + 1, characters =>
    if reversedText.isPrefixOf characters then
      dropCopies reversedText copies (characters.drop reversedText.length)
    else characters

/-- A text without the copies of another text at its end. -/
def dropSuffixes (suffix text : String) : String :=
  String.ofList
    (dropCopies suffix.toList.reverse text.length text.toList.reverse).reverse

/-- The objective as a formula. It is written as an equation with zero, whose right-hand side is
then cut off. -/
def Problem.objectiveFormula (problem : Problem α) : String :=
  let equation : Constraint α := ⟨"", problem.objective, .equal, 0⟩
  (match problem.sense with
    | .maximize => "max Z = "
    | .minimize => "min Z = ") ++
    dropSuffixes " = 0" (equation.formula problem.variableNames)

end LinearProgramming
