/-
This file keeps the inverse of a basis matrix up to date when one basic column is exchanged.

If `inverse` belongs to a basis and `direction` is the inverse times the entering column, then
dividing one row of the inverse by its entry of `direction`, and taking multiples of it from the
other rows, gives the inverse that belongs to the basis with that row's column replaced.
-/

import LinearProgramming.DenseMatrix

namespace LinearProgramming

variable {α : Type} [Scalar α] {m : Nat}

/-- The inverse after the column with a given direction replaces the basic column of a row. Rows
whose entry of the direction is exactly zero are left as they are. -/
def updateInverse (inverse : DenseMatrix α m m) (direction : Vector α m) (row : Fin m) :
    DenseMatrix α m m :=
  let pivotRow : Vector α m := Vector.ofFn fun j => inverse.get row j / direction.get row
  DenseMatrix.ofFn fun i j =>
    if i = row then pivotRow.get j
    else if direction.get i == 0 then inverse.get i j
    else inverse.get i j - direction.get i * pivotRow.get j

end LinearProgramming
