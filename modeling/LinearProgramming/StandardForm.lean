/-
This file turns a valid problem into equations over non-negative unknowns.

Every row is multiplied by a sign that makes its right-hand side non-negative. A slack or surplus
column closes each inequality, and an artificial column with a penalty gives each row without a
slack column something to start from. The columns are ordered: decision variables first, then
slack and surplus columns by row, then artificial columns by row.
-/

import LinearProgramming.BigM
import LinearProgramming.DenseMatrix
import LinearProgramming.Problem.Validity

namespace LinearProgramming

/-! ### Columns -/

/-- What a column of the standard form stands for. A slack is added to an upper bound, a surplus
is taken from a lower bound, and an artificial column is present in the first basis only to be
driven out. -/
inductive Column (vars rows : Nat) where
  | decision (variableIndex : Fin vars)
  | slack (row : Fin rows)
  | surplus (row : Fin rows)
  | artificial (row : Fin rows)
  deriving DecidableEq, Repr

namespace Column

variable {vars rows : Nat}

/-- The column is an artificial one. -/
def isArtificial : Column vars rows → Bool
  | artificial _ => true
  | _ => false

/-- The sign with which a slack or surplus column stands in its row. -/
def slackSign {α : Type} [Scalar α] : Column vars rows → α
  | surplus _ => -1
  | _ => 1

/-- The kind of the column as a number and what it belongs to, for comparing columns of forms of
different shapes. -/
def key : Column vars rows → Nat × Nat
  | decision variableIndex => (0, variableIndex)
  | slack row => (1, row)
  | surplus row => (2, row)
  | artificial row => (3, row)

end Column

variable {α : Type} [Scalar α]

namespace Problem

/-! ### Rows with their signs -/

/-- A constraint by its index. -/
def row (problem : Problem α) (i : Fin problem.numRows) : Constraint α :=
  problem.constraints.get i

/-- The sign that makes the right-hand side of a row non-negative. -/
def rowSign (problem : Problem α) (i : Fin problem.numRows) : α :=
  if (problem.row i).rhs < 0 then -1 else 1

/-- The relation of a row after it is multiplied by its sign. -/
def rowRelation (problem : Problem α) (i : Fin problem.numRows) : Relation :=
  if (problem.row i).rhs < 0 then (problem.row i).relation.flipped else (problem.row i).relation

/-- The slack or surplus column of a row, which an equation does not have. -/
def slackColumn? (problem : Problem α) (i : Fin problem.numRows) :
    Option (Column problem.numVars problem.numRows) :=
  match problem.rowRelation i with
  | .atMost => some (.slack i)
  | .atLeast => some (.surplus i)
  | .equal => none

/-- The artificial column of a row, which a row with a slack column does not have. -/
def artificialColumn? (problem : Problem α) (i : Fin problem.numRows) :
    Option (Column problem.numVars problem.numRows) :=
  match problem.rowRelation i with
  | .atMost => none
  | .atLeast | .equal => some (.artificial i)

/-- The column that is basic in a row at the start. -/
def startColumn (problem : Problem α) (i : Fin problem.numRows) :
    Column problem.numVars problem.numRows :=
  match problem.rowRelation i with
  | .atMost => .slack i
  | .atLeast | .equal => .artificial i

/-- All columns in order. -/
def columns (problem : Problem α) : List (Column problem.numVars problem.numRows) :=
  (List.finRange problem.numVars).map .decision ++
    (List.finRange problem.numRows).filterMap problem.slackColumn? ++
    (List.finRange problem.numRows).filterMap problem.artificialColumn?

/-- The number of columns. -/
def numColumns (problem : Problem α) : Nat := problem.columns.length

theorem numVars_le_numColumns (problem : Problem α) : problem.numVars ≤ problem.numColumns := by
  simp [numColumns, columns]

theorem startColumn_mem (problem : Problem α) (i : Fin problem.numRows) :
    problem.startColumn i ∈ problem.columns := by
  unfold columns
  cases relation : problem.rowRelation i with
  | atMost =>
    refine List.mem_append_left _ (List.mem_append_right _ (List.mem_filterMap.2 ⟨i, ?_, ?_⟩))
    · exact List.mem_finRange i
    · simp [slackColumn?, startColumn, relation]
  | atLeast =>
    refine List.mem_append_right _ (List.mem_filterMap.2 ⟨i, List.mem_finRange i, ?_⟩)
    simp [artificialColumn?, startColumn, relation]
  | equal =>
    refine List.mem_append_right _ (List.mem_filterMap.2 ⟨i, List.mem_finRange i, ?_⟩)
    simp [artificialColumn?, startColumn, relation]

/-- All columns in order, by index. -/
def columnVector (problem : Problem α) :
    Vector (Column problem.numVars problem.numRows) problem.numColumns :=
  ⟨problem.columns.toArray, rfl⟩

/-- The name of a column: that of its variable, or `s` or `a` with the number of its row. -/
def columnName (problem : Problem α) : Column problem.numVars problem.numRows → String
  | .decision j => problem.variableName j
  | .slack i | .surplus i => s!"s{i.val + 1}"
  | .artificial i => s!"a{i.val + 1}"

/-- The coefficient of a variable in a row. -/
def coefficient (problem : Problem α) (valid : problem.Valid) (i : Fin problem.numRows)
    (j : Fin problem.numVars) : α :=
  (problem.row i).coefficients.get
    (j.cast (valid.constraints_fit _ (List.get_mem _ i)).length.symm)

/-- The objective coefficient of a variable. -/
def objectiveCoefficient (problem : Problem α) (valid : problem.Valid)
    (j : Fin problem.numVars) : α :=
  problem.objective.get (j.cast valid.objective_length.symm)

/-- The entry of the equations in a row and a column. -/
def entry (problem : Problem α) (valid : problem.Valid) (i : Fin problem.numRows) :
    Column problem.numVars problem.numRows → α
  | .decision j => problem.rowSign i * problem.coefficient valid i j
  | .slack k => if k = i then 1 else 0
  | .surplus k => if k = i then -1 else 0
  | .artificial k => if k = i then 1 else 0

/-- The objective of a column when the objective is to be made large. -/
def cost (problem : Problem α) (valid : problem.Valid) :
    Column problem.numVars problem.numRows → BigM α
  | .decision j => .ofScalar (problem.sense.orient (problem.objectiveCoefficient valid j))
  | .slack _ | .surplus _ => 0
  | .artificial _ => -.penaltyUnit

end Problem

/-! ### The form -/

/-- Equations `a x = b` over non-negative unknowns with costs to be made large, together with a
basis whose columns form the identity. -/
structure StandardForm (α : Type) where
  numVars : Nat
  numRows : Nat
  numColumns : Nat
  numVars_le : numVars ≤ numColumns
  columns : Vector (Column numVars numRows) numColumns
  names : Vector String numColumns
  a : DenseMatrix α numRows numColumns
  b : Vector α numRows
  costs : Vector (BigM α) numColumns
  initialBasis : Vector (Fin numColumns) numRows
  rowSigns : Vector α numRows
  slackOf : Vector (Option (Fin numColumns)) numRows
  artificialOf : Vector (Option (Fin numColumns)) numRows

namespace StandardForm

/-- The standard form of a valid problem. -/
def ofProblem (problem : Problem α) (valid : problem.Valid) : StandardForm α :=
  let columns := problem.columnVector
  { numVars := problem.numVars
    numRows := problem.numRows
    numColumns := problem.numColumns
    numVars_le := problem.numVars_le_numColumns
    columns
    names := columns.map problem.columnName
    a := DenseMatrix.ofFn fun i column => problem.entry valid i (columns.get column)
    b := Vector.ofFn fun i => problem.rowSign i * (problem.row i).rhs
    costs := columns.map (problem.cost valid)
    initialBasis := Vector.ofFn fun i =>
      ⟨problem.columns.idxOf (problem.startColumn i),
        List.idxOf_lt_length_of_mem (problem.startColumn_mem i)⟩
    rowSigns := Vector.ofFn problem.rowSign
    slackOf := Vector.ofFn fun i => (problem.slackColumn? i).bind problem.columns.finIdxOf?
    artificialOf := Vector.ofFn fun i =>
      (problem.artificialColumn? i).bind problem.columns.finIdxOf? }

/-- The column of a decision variable. -/
def decisionColumn (form : StandardForm α) (j : Fin form.numVars) : Fin form.numColumns :=
  j.castLE form.numVars_le

/-- The column is an artificial one. -/
def isArtificial (form : StandardForm α) (column : Fin form.numColumns) : Bool :=
  (form.columns.get column).isArtificial

/-- The number of artificial columns. -/
def numArtificial (form : StandardForm α) : Nat :=
  form.artificialOf.toList.countP Option.isSome

/-- Two forms have the same shape and the same entries throughout. -/
def agrees (left right : StandardForm α) : Bool :=
  left.numVars == right.numVars &&
    left.columns.toList.map Column.key == right.columns.toList.map Column.key &&
    left.names.toList == right.names.toList &&
    left.numRows == right.numRows && left.numColumns == right.numColumns &&
    left.a.toLists == right.a.toLists &&
    left.b.toList == right.b.toList &&
    left.costs.toList == right.costs.toList &&
    left.initialBasis.toList.map Fin.val == right.initialBasis.toList.map Fin.val &&
    left.rowSigns.toList == right.rowSigns.toList &&
    left.slackOf.toList.map (Option.map Fin.val) ==
      right.slackOf.toList.map (Option.map Fin.val) &&
    left.artificialOf.toList.map (Option.map Fin.val) ==
      right.artificialOf.toList.map (Option.map Fin.val)

end StandardForm

end LinearProgramming
