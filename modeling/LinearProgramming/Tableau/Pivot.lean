/-
This file exchanges one basic column of a tableau for another.

The row of the leaving column is divided by its entry in the entering column, and a multiple of
it is taken from every other row, so that the entering column becomes a unit column. Rows whose
entry in that column is zero up to the tolerance are left as they are.
-/

import LinearProgramming.BigM.Text
import LinearProgramming.Tableau

namespace LinearProgramming

/-- One operation on the rows of a tableau. -/
inductive RowOperation (α : Type) (m : Nat) where
  | divide (row : Fin m) (divisor : BigM α)
  | eliminate (target : Fin (m + 1)) (factor : BigM α) (row : Fin m)

/-- The name of a row: `Z` for the objective, or `R` with a number counted from one. -/
def rowLabel {m : Nat} (row : Fin (m + 1)) : String :=
  if row.val = 0 then "Z" else s!"R{row.val}"

variable {α : Type} [Scalar α] {m n : Nat}

/-- The operation as an assignment. -/
def RowOperation.text : RowOperation α m → String
  | divide row divisor =>
    let label := rowLabel row.succ
    label ++ " ← " ++ label ++ " / " ++ divisor.text
  | eliminate target factor row =>
    let label := rowLabel target
    label ++ " ← " ++ label ++ " - (" ++ factor.text ++ ") × " ++ rowLabel row.succ

namespace Tableau

/-- For each row with a positive entry in a column, how far the unknown of that column can grow
before the basic unknown of the row becomes zero. -/
def ratios (tolerance : α) (tableau : Tableau α m n) (column : Fin n) : Vector (Option α) m :=
  Vector.ofFn fun row =>
    let coefficient := tableau.entry row column
    if tolerance < coefficient then some (tableau.rhs row / coefficient) else none

/-- The pivot row divided by the pivot, whose place becomes exactly one. -/
def pivotRow (tableau : Tableau α m n) (row : Fin m) (column : Fin n) :
    Vector (BigM α) (n + 1) :=
  let pivot := tableau.entry row column
  Vector.ofFn fun j =>
    if j = column.castSucc then .ofScalar 1 else (tableau.cells.get row.succ j).divide pivot

/-- The tableau after a column enters the basis in a row. -/
def pivot (tolerance : α) (tableau : Tableau α m n) (row : Fin m) (column : Fin n) :
    Tableau α m n :=
  let pivotRow := tableau.pivotRow row column
  { cells := DenseMatrix.ofFn fun i j =>
      let cell := tableau.cells.get i j
      let factor := tableau.cells.get i column.castSucc
      if i = row.succ then pivotRow.get j
      else if factor.isZeroWithin tolerance then cell
      else if j = column.castSucc then 0
      else cell - factor.scale (pivotRow.get j).value
    basis := replaceEntry tableau.basis row column }

/-- The row operations that a pivot consists of. -/
def pivotOperations (tolerance : α) (tableau : Tableau α m n) (row : Fin m) (column : Fin n) :
    List (RowOperation α m) :=
  .divide row (tableau.cells.get row.succ column.castSucc) ::
    (List.finRange (m + 1)).filterMap fun i =>
      let factor := tableau.cells.get i column.castSucc
      if i = row.succ ∨ factor.isZeroWithin tolerance then none
      else some (.eliminate i factor row)

end Tableau

end LinearProgramming
