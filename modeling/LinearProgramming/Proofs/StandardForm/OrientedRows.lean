/-
This file makes a standard form from equations that already have their signs.

All that a form takes from a problem are the names and the costs of the variables, the signs of the
rows, and of every row the relation, the coefficients and the right-hand side after it is multiplied
by its sign. Here these are functions on row numbers. The rows of two problems with equally many
constraints can be compared as such functions, where the forms themselves have different types.
Two problems with equal oriented rows have one form up to the signs.
-/

import Mathlib
import LinearProgramming.StandardForm

namespace LinearProgramming

variable {α : Type} {k m : Nat}

/-- A row after it is multiplied by its sign. -/
structure OrientedRow (α : Type) (k : Nat) where
  relation : Relation
  coefficients : Fin k → α
  rhs : α

namespace OrientedRow

variable (rows : Fin m → OrientedRow α k)

/-! ### The columns of oriented rows -/

/-- The slack or surplus column of a row. -/
def slackColumn? (i : Fin m) : Option (Column k m) :=
  match (rows i).relation with
  | .atMost => some (.slack i)
  | .atLeast => some (.surplus i)
  | .equal => none

/-- The artificial column of a row. -/
def artificialColumn? (i : Fin m) : Option (Column k m) :=
  match (rows i).relation with
  | .atMost => none
  | .atLeast | .equal => some (.artificial i)

/-- The column that is basic in a row at the start. -/
def startColumn (i : Fin m) : Column k m :=
  match (rows i).relation with
  | .atMost => .slack i
  | .atLeast | .equal => .artificial i

/-- All columns in order. -/
def columns : List (Column k m) :=
  (List.finRange k).map .decision ++ (List.finRange m).filterMap (slackColumn? rows) ++
    (List.finRange m).filterMap (artificialColumn? rows)

theorem le_length_columns : k ≤ (columns rows).length := by
  simp [columns]

theorem startColumn_mem (i : Fin m) : startColumn rows i ∈ columns rows := by
  unfold columns
  cases relation : (rows i).relation with
  | atMost =>
    refine List.mem_append_left _ (List.mem_append_right _ (List.mem_filterMap.2 ⟨i, ?_, ?_⟩))
    · exact List.mem_finRange i
    · simp [slackColumn?, startColumn, relation]
  | atLeast =>
    refine List.mem_append_right _ (List.mem_filterMap.2 ⟨i, List.mem_finRange i, ?_⟩)
    simp [artificialColumn?, startColumn, relation]
  | equal =>
    refine List.mem_append_right _ (List.mem_filterMap.2 ⟨i, List.mem_finRange i, ?_⟩)
    simp [artificialColumn?, startColumn, relation]

/-- The name of a column. -/
def columnName (names : Fin k → String) : Column k m → String
  | .decision j => names j
  | .slack i | .surplus i => s!"s{i.val + 1}"
  | .artificial i => s!"a{i.val + 1}"

variable [Scalar α]

/-- The entry of the equations in a row and a column. -/
def entry (i : Fin m) : Column k m → α
  | .decision j => (rows i).coefficients j
  | .slack position => if position = i then 1 else 0
  | .surplus position => if position = i then -1 else 0
  | .artificial position => if position = i then 1 else 0

/-- The objective of a column. -/
def cost (costs : Fin k → α) : Column k m → BigM α
  | .decision j => .ofScalar (costs j)
  | .slack _ | .surplus _ => 0
  | .artificial _ => -.penaltyUnit

end OrientedRow

variable [Scalar α]

/-- The form of oriented rows. -/
def StandardForm.ofRows (names : Fin k → String) (costs : Fin k → α)
    (rows : Fin m → OrientedRow α k) (signs : Fin m → α) : StandardForm α :=
  let columns : Vector (Column k m) (OrientedRow.columns rows).length :=
    ⟨(OrientedRow.columns rows).toArray, rfl⟩
  { numVars := k
    numRows := m
    numColumns := (OrientedRow.columns rows).length
    numVars_le := OrientedRow.le_length_columns rows
    columns
    names := columns.map (OrientedRow.columnName names)
    a := DenseMatrix.ofFn fun i column => OrientedRow.entry rows i (columns.get column)
    b := Vector.ofFn fun i => (rows i).rhs
    costs := columns.map (OrientedRow.cost costs)
    initialBasis := Vector.ofFn fun i =>
      ⟨(OrientedRow.columns rows).idxOf (OrientedRow.startColumn rows i),
        List.idxOf_lt_length_of_mem (OrientedRow.startColumn_mem rows i)⟩
    rowSigns := Vector.ofFn signs
    slackOf := Vector.ofFn fun i =>
      (OrientedRow.slackColumn? rows i).bind (OrientedRow.columns rows).finIdxOf?
    artificialOf := Vector.ofFn fun i =>
      (OrientedRow.artificialColumn? rows i).bind (OrientedRow.columns rows).finIdxOf? }

/-! ### The oriented rows of a problem -/

namespace Problem

variable (problem : Problem α)

/-- The objective coefficient of a variable for maximizing. -/
def maxCost (valid : problem.Valid) (j : Fin problem.numVars) : α :=
  problem.sense.orient (problem.objectiveCoefficient valid j)

variable {problem} in
/-- A coefficient is the entry of its row in the list of the author. -/
theorem getElem?_coefficients (valid : problem.Valid) (i : Fin problem.numRows)
    (j : Fin problem.numVars) :
    (problem.row i).coefficients[j.val]? = some (problem.coefficient valid i j) :=
  List.getElem?_eq_getElem _

/-- A row of a problem after it is multiplied by its sign. -/
def orientedRow (valid : problem.Valid) (i : Fin problem.numRows) :
    OrientedRow α problem.numVars where
  relation := problem.rowRelation i
  coefficients j := problem.rowSign i * problem.coefficient valid i j
  rhs := problem.rowSign i * (problem.row i).rhs

omit [Scalar α] in
theorem columnName_orientedRow :
    OrientedRow.columnName problem.variableName = problem.columnName :=
  funext fun column => by cases column <;> rfl

theorem entry_orientedRow (valid : problem.Valid) :
    OrientedRow.entry (problem.orientedRow valid) = problem.entry valid :=
  funext fun _ => funext fun column => by cases column <;> rfl

theorem cost_maxCost (valid : problem.Valid) :
    OrientedRow.cost (problem.maxCost valid) = problem.cost valid :=
  funext fun column => by cases column <;> rfl

end Problem

namespace StandardForm

/-- The form of a problem is that of its oriented rows. -/
theorem ofRows_orientedRow {problem : Problem α} (valid : problem.Valid) :
    ofRows problem.variableName (problem.maxCost valid) (problem.orientedRow valid)
      problem.rowSign = ofProblem problem valid := by
  unfold ofRows ofProblem
  rw [problem.columnName_orientedRow, problem.entry_orientedRow, problem.cost_maxCost]
  rfl

/-- Rows under other numbers that count as many make the same form. -/
theorem ofRows_cast {others : Nat} (count : others = m) (names : Fin k → String)
    (costs : Fin k → α) (rows : Fin m → OrientedRow α k) (signs : Fin m → α) :
    ofRows names costs (fun i : Fin others => rows (i.cast count))
      (fun i => signs (i.cast count)) = ofRows names costs rows signs := by
  subst count
  rfl

/-- When the constraints of a problem are replaced by as many with the same oriented rows, only the
signs of the rows can change in its form. -/
theorem ofProblem_withConstraints {problem : Problem α} {constraints : List (Constraint α)}
    (valid : problem.Valid) (validOther : (problem.withConstraints constraints).Valid)
    (count : constraints.length = problem.numRows)
    (same : ∀ i : Fin constraints.length, (problem.withConstraints constraints).orientedRow
      validOther i = problem.orientedRow valid (i.cast count))
    {signs : Fin problem.numRows → α}
    (signed : ∀ i : Fin constraints.length, (problem.withConstraints constraints).rowSign i =
      signs (i.cast count)) :
    ofProblem (problem.withConstraints constraints) validOther =
      ofRows problem.variableName (problem.maxCost valid) (problem.orientedRow valid) signs := by
  refine (ofRows_orientedRow validOther).symm.trans (Eq.trans ?_ (ofRows_cast count _ _ _ _))
  exact congrArg₂ (ofRows problem.variableName (problem.maxCost valid)) (funext same)
    (funext signed)

end StandardForm

end LinearProgramming
