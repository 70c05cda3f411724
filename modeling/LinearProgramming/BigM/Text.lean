/-
This file writes numbers, with and without penalty, as they stand in tableaux and explanations.

A number is written without decimals where it is whole, and otherwise rounded to four places
with the zeros at the end left out. A penalty is written as a multiple of `M`.
-/

import LinearProgramming.BigM
import LinearProgramming.Numeral.Fixed

namespace LinearProgramming

variable {α : Type} [Scalar α]

/-- A number in at most four decimal places. Numbers within the default tolerance of a whole
number are written as that number. -/
def numberText (number : α) : String :=
  if Scalar.isInfinite number then (if 0 < number then "∞" else "-∞")
  else if Scalar.abs number ≤ Scalar.epsilon then "0"
  else if Scalar.abs (number - Scalar.round number) ≤ Scalar.epsilon then
    Scalar.wholeText (Scalar.round number)
  else Numeral.trimmed (Scalar.fixedText 4 number)

/-- Numbers separated by commas in square brackets. -/
def vectorText (numbers : List α) : String :=
  "[" ++ String.intercalate ", " (numbers.map numberText) ++ "]"

namespace BigM

/-- The size of the penalty as a multiple of `M`; the factor one is left out. -/
def penaltyText (number : BigM α) : String :=
  let size := Scalar.abs number.penalty
  if Scalar.abs (size - 1) ≤ Scalar.epsilon then "M" else numberText size ++ "M"

/-- The value and the penalty, where they are not zero, with a sign between them. -/
def text (number : BigM α) : String :=
  if number.isReal then numberText number.value
  else if Scalar.epsilon < Scalar.abs number.value then
    numberText number.value ++ (if 0 < number.penalty then " + " else " - ") ++
      number.penaltyText
  else if number.penalty < 0 then "-" ++ number.penaltyText
  else number.penaltyText

end BigM

end LinearProgramming
