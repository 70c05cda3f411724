/-
This file holds the simplex tableau and its start.

Row zero belongs to the objective and every further row to a constraint; the last column holds
the right-hand sides. At the start the constraint rows are the equations of the standard form,
and the penalties of the first basis are already eliminated from the objective row.
-/

import LinearProgramming.StandardForm

namespace LinearProgramming

/-- A tableau over `m` constraint rows and `n` columns, with the basic column of each row. -/
structure Tableau (α : Type) (m n : Nat) where
  cells : DenseMatrix (BigM α) (m + 1) (n + 1)
  basis : Vector (Fin n) m

namespace Tableau

variable {α : Type} {m n : Nat}

/-! ### Reading a tableau -/

/-- The entry of the objective row under a column. -/
def objectiveEntry (tableau : Tableau α m n) (column : Fin n) : BigM α :=
  tableau.cells.get 0 column.castSucc

/-- The objective row without its right-hand side. -/
def objectiveRow (tableau : Tableau α m n) : Vector (BigM α) n :=
  Vector.ofFn tableau.objectiveEntry

/-- The value of the objective in the form that is made large. -/
def objective (tableau : Tableau α m n) : BigM α := tableau.cells.get 0 (Fin.last n)

/-- The entry of a constraint row under a column. -/
def entry (tableau : Tableau α m n) (row : Fin m) (column : Fin n) : α :=
  (tableau.cells.get row.succ column.castSucc).value

/-- The right-hand side of a constraint row. -/
def rhs (tableau : Tableau α m n) (row : Fin m) : α :=
  (tableau.cells.get row.succ (Fin.last n)).value

/-- The entries of the constraint rows under a column. -/
def column (tableau : Tableau α m n) (column : Fin n) : Vector α m :=
  Vector.ofFn fun row => tableau.entry row column

/-- The first row in which the column with a given number is basic. -/
def basicRow? (tableau : Tableau α m n) (number : Nat) : Option (Fin m) :=
  (List.finRange m).find? fun row => (tableau.basis.get row).val == number

/-- The column with a given number is basic in some row. -/
def isBasic (tableau : Tableau α m n) (number : Nat) : Bool :=
  (tableau.basicRow? number).isSome

/-- The value of the unknown of a column at the basis: the right-hand side of its row, and zero
where the column is not basic. -/
def valueOf [Zero α] (tableau : Tableau α m n) (number : Nat) : α :=
  ((tableau.basicRow? number).map tableau.rhs).getD 0

/-- The names that stand before the rows. -/
def rowHeaders (tableau : Tableau α m n) (names : Vector String n) : List String :=
  "Z" :: tableau.basis.toList.map names.get

/-- The names that stand above the columns. -/
def columnHeaders (names : Vector String n) : List String := names.toList ++ ["RHS"]

/-! ### The start -/

variable [Scalar α]

/-- A constraint row of a standard form with its right-hand side at the end. -/
def equation (form : StandardForm α) (row : Fin form.numRows) :
    Vector α (form.numColumns + 1) :=
  (form.a.row row).push (form.b.get row)

/-- The negated costs with a zero at the end. -/
def negatedCosts (form : StandardForm α) : Vector (BigM α) (form.numColumns + 1) :=
  (form.costs.map fun cost => -cost).push 0

/-- The objective row at the start. To the negated costs it adds each row times the cost of its
basic column, which makes the entries under the first basis zero. -/
def startingObjective (form : StandardForm α) : Vector (BigM α) (form.numColumns + 1) :=
  (List.finRange form.numRows).foldl (fun objective row =>
    let cost := form.costs.get (form.initialBasis.get row)
    if cost.isZero then objective
    else Vector.zipWith (fun entry coefficient => entry + cost.scale coefficient) objective
      (equation form row)) (negatedCosts form)

/-- The tableau of the first basis. -/
def initial (form : StandardForm α) : Tableau α form.numRows form.numColumns :=
  let objective := startingObjective form
  let equations := Vector.ofFn (equation form)
  { cells := DenseMatrix.ofFn fun i j =>
      Fin.cases (objective.get j) (fun row => BigM.ofScalar ((equations.get row).get j)) i
    basis := form.initialBasis }

end Tableau

end LinearProgramming
