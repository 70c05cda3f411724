/-
This file runs the revised simplex method.

Instead of a tableau the method keeps the inverse of the basis matrix, and prices every column
outside the basis from it in each iteration. Costs are made small here, so the costs of a
standard form enter with their signs changed and artificial columns carry a positive penalty. A
run can start from a problem, or from raw data with a basis and its inverse.
-/

import LinearProgramming.Revised.Inverse
import LinearProgramming.Revised.Step
import LinearProgramming.StandardForm
import LinearProgramming.Table

namespace LinearProgramming

variable {α : Type} [Scalar α]

/-- Equations `a x = b` with costs to be made small, a starting basis with its inverse, and the
settings of a run. The first `numVars` unknowns are reported, and the objective is reported in
the author's sense. -/
structure RevisedSimplex (α : Type) [Scalar α] where
  numRows : Nat
  numColumns : Nat
  names : Vector String numColumns
  costs : Vector (BigM α) numColumns
  a : DenseMatrix α numRows numColumns
  b : Vector α numRows
  inverse : DenseMatrix α numRows numRows
  basis : Vector (Fin numColumns) numRows
  numVars : Nat
  sense : Sense
  maxIterations : Nat := 100
  tolerance : α := Scalar.epsilon

/-- A basis with its inverse, reached after a number of exchanges. -/
structure RevisedState (α : Type) (m n : Nat) where
  iteration : Nat
  basis : Vector (Fin n) m
  inverse : DenseMatrix α m m

namespace RevisedSimplex

/-! ### Starting data -/

/-- The method on raw data, whose inverse must be that of the basic columns. Every unknown is
reported. -/
def ofData {m n : Nat} (costs : Vector (BigM α) n) (a : DenseMatrix α m n) (b : Vector α m)
    (inverse : DenseMatrix α m m) (basis : Vector (Fin n) m) : RevisedSimplex α where
  numRows := m
  numColumns := n
  names := Vector.ofFn fun j => s!"x{j.val + 1}"
  costs := costs
  a := a
  b := b
  inverse := inverse
  basis := basis
  numVars := n
  sense := .minimize

/-- The method on a standard form, whose first basis has the identity as its inverse. -/
def ofForm (form : StandardForm α) (sense : Sense) : RevisedSimplex α where
  numRows := form.numRows
  numColumns := form.numColumns
  names := form.names
  costs := form.costs.map fun cost => -cost
  a := form.a
  b := form.b
  inverse := DenseMatrix.identity
  basis := form.initialBasis
  numVars := form.numVars
  sense := sense

/-- The method on a problem. -/
def ofProblem (problem : Problem α) : Except ProblemError (RevisedSimplex α) := do
  let ⟨valid⟩ ← problem.validate
  return ofForm (StandardForm.ofProblem problem valid) problem.sense

/-- A list as a vector, or the complaint that its length is wrong. -/
def sized {β : Type} (extent : Extent) (length : Nat) (list : List β) :
    Except ProblemError (Vector β length) :=
  match vectorOf? length list with
  | some vector => .ok vector
  | none => .error (.dimension extent length list.length)

/-- A table as a square matrix, or the complaint that one of its sides is wrong. -/
def squareInverse (size : Nat) (inverse : Table α) :
    Except ProblemError (DenseMatrix α size size) :=
  if rows : inverse.rowCount = size then
    if columns : inverse.columnCount = size then
      .ok (DenseMatrix.ofFn fun i j => inverse.entries.get (i.cast rows.symm) (j.cast columns.symm))
    else .error (.dimension .inverseColumns size inverse.columnCount)
  else .error (.dimension .inverseRows size inverse.rowCount)

/-- A number as a column index, or the complaint that there is no such column. -/
def columnIndex (count number : Nat) : Except ProblemError (Fin count) :=
  if inRange : number < count then .ok ⟨number, inRange⟩
  else .error (.variableIndex number count)

/-- The method on raw data of unchecked sizes. The sizes are checked in the order of the
arguments, and the entries of the basis last. -/
def ofLists? (costs : List (BigM α)) (a : Table α) (b : List α) (inverse : Table α)
    (basis : List Nat) : Except ProblemError (RevisedSimplex α) := do
  let costs ← sized .costs a.columnCount costs
  let b ← sized .rightHandSide a.rowCount b
  let inverse ← squareInverse a.rowCount inverse
  let basis ← sized .basis a.rowCount basis
  let basis ← basis.mapM (columnIndex a.columnCount)
  return ofData costs a.entries b inverse basis

/-- The method with other names for the columns. -/
def withNames? (engine : RevisedSimplex α) (names : List String) :
    Except ProblemError (RevisedSimplex α) := do
  let names ← sized .columnNames engine.numColumns names
  return { engine with names }

/-! ### One iteration -/

/-- A column with a positive penalty. -/
def isArtificial (engine : RevisedSimplex α) (column : Fin engine.numColumns) : Bool :=
  engine.tolerance < (engine.costs.get column).penalty

/-- The columns outside a basis in order, each with its cost less that of the basic columns it
would replace. -/
def reducedCosts (engine : RevisedSimplex α)
    (inverse : DenseMatrix α engine.numRows engine.numRows)
    (basis : Vector (Fin engine.numColumns) engine.numRows)
    (basicCosts : Vector (BigM α) engine.numRows) : List (Fin engine.numColumns × BigM α) :=
  ((List.finRange engine.numColumns).filter fun j => !basis.toList.contains j).map fun j =>
    (j, engine.costs.get j -
      BigM.dot basicCosts.toList (inverse.mulVec (engine.a.column j)).toList)

/-- For each row with a positive entry of the direction, its level divided by that entry. -/
def ratios {m : Nat} (tolerance : α) (direction levels : Vector α m) : Vector (Option α) m :=
  Vector.ofFn fun row =>
    if tolerance < direction.get row then some (levels.get row / direction.get row) else none

/-- The first row with the least ratio, and that ratio. -/
def leastRatio {m : Nat} (ratios : Vector (Option α) m) : Option (Fin m × α) :=
  (List.finRange m).foldl (fun found row =>
    match ratios.get row, found with
    | none, _ => found
    | some ratio, none => some (row, ratio)
    | some ratio, some (_, least) => if ratio < least then some (row, ratio) else found) none

/-- The decision for an entering column. -/
def exchangeOrUnbounded (engine : RevisedSimplex α)
    (inverse : DenseMatrix α engine.numRows engine.numRows) (levels : Vector α engine.numRows)
    (entering : Fin engine.numColumns) (reducedCost : BigM α) :
    RevisedDecision α engine.numRows engine.numColumns :=
  let direction := inverse.mulVec (engine.a.column entering)
  let ratios := ratios engine.tolerance direction levels
  match leastRatio ratios with
  | none => .unbounded entering direction ratios
  | some (leaving, theta) => .exchange entering reducedCost direction ratios leaving theta

/-- Everything that is known at a basis. Without permission to go on, a column that could enter
ends the run. -/
def examine (engine : RevisedSimplex α) (mayExchange : Bool)
    (state : RevisedState α engine.numRows engine.numColumns) :
    RevisedStep α engine.numRows engine.numColumns :=
  let levels := state.inverse.mulVec engine.b
  let basicCosts := state.basis.map engine.costs.get
  let reducedCosts := engine.reducedCosts state.inverse state.basis basicCosts
  { iteration := state.iteration
    basis := state.basis
    inverse := state.inverse
    levels
    basicCosts
    reducedCosts
    objective := BigM.dot basicCosts.toList levels.toList
    decision :=
      match BigM.leastNegative engine.tolerance reducedCosts with
      | none => .optimal
      | some (entering, reducedCost) =>
        if mayExchange then
          engine.exchangeOrUnbounded state.inverse levels entering reducedCost
        else .notConverged }

/-- The state after an exchange. -/
def exchange {m n : Nat} (state : RevisedState α m n) (entering : Fin n)
    (direction : Vector α m) (leaving : Fin m) : RevisedState α m n where
  iteration := state.iteration + 1
  basis := replaceEntry state.basis leaving entering
  inverse := updateInverse state.inverse direction leaving

/-! ### The run -/

/-- Iterates until a decision ends the run, with at most a given number of exchanges. Returns
the iterations that made an exchange and the one that ended the run. -/
def iterate (engine : RevisedSimplex α) :
    Nat → Array (RevisedStep α engine.numRows engine.numColumns) →
      RevisedState α engine.numRows engine.numColumns →
      Array (RevisedStep α engine.numRows engine.numColumns) ×
        RevisedStep α engine.numRows engine.numColumns
  | 0, earlier, state => (earlier, engine.examine false state)
  | remaining + 1, earlier, state =>
    let step := engine.examine true state
    match step.decision with
    | .exchange entering _ direction _ leaving _ =>
      engine.iterate remaining (earlier.push step) (exchange state entering direction leaving)
    | _ => (earlier, step)

/-- The level of the unknown with a given number in an iteration. -/
def levelOf {m n : Nat} (step : RevisedStep α m n) (number : Nat) : α :=
  (((List.finRange m).find? fun row => (step.basis.get row).val == number).map
    step.levels.get).getD 0

/-- An artificial column is basic at a positive level. -/
def hasPositiveArtificial (engine : RevisedSimplex α)
    (step : RevisedStep α engine.numRows engine.numColumns) : Bool :=
  (List.finRange engine.numRows).any fun row =>
    engine.isArtificial (step.basis.get row) && engine.tolerance < step.levels.get row

/-- What the last iteration says about the problem. -/
def outcomeOf (engine : RevisedSimplex α)
    (step : RevisedStep α engine.numRows engine.numColumns) : Outcome α :=
  match step.decision with
  | .optimal =>
    if engine.hasPositiveArtificial step then .infeasible
    else
      .optimal ((List.range engine.numVars).map (levelOf step))
        (match engine.sense with
          | .maximize => -step.objective.value
          | .minimize => step.objective.value)
  | .unbounded _ _ _ => .unbounded engine.sense
  | .notConverged | .exchange _ _ _ _ _ _ => .notConverged

/-- Runs the method to its end. -/
def solve (engine : RevisedSimplex α) : RevisedSolution α :=
  let (earlier, final) :=
    engine.iterate engine.maxIterations #[] ⟨0, engine.basis, engine.inverse⟩
  ⟨engine.numRows, engine.numColumns, engine.names, earlier, final, engine.outcomeOf final⟩

end RevisedSimplex

end LinearProgramming
