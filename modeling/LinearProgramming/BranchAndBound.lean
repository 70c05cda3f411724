/-
This file solves problems in which some variables must be integral.

The search is depth-first with an explicit stack. Each node is solved as a linear program. It is
pruned when it has no optimal point or cannot improve on the incumbent; it becomes the incumbent
when its point is integral; otherwise it branches on its first fractional variable, into a child
with the value rounded down as an upper bound and a child with the value rounded up as a lower
bound, of which the first is visited first.
-/

import LinearProgramming.Problem.Text
import LinearProgramming.SearchTree
import LinearProgramming.Simplex

namespace LinearProgramming

variable {α : Type} [Scalar α]

/-- The settings of a search: the method for the relaxations, the number of nodes after which
the search stops, and the distance from a whole number within which a value is integral. Nodes
are numbered by 64-bit words, so without a limit there are at most as many. -/
structure BranchAndBound (α : Type) [Scalar α] where
  solver : Solver α := {}
  maxNodes : Nat := 18446744073709551616
  integerTolerance : α := 0.001

/-- A node that has a number but is not solved yet. -/
structure PendingNode (α : Type) where
  id : Nat
  parent : Option Nat
  depth : Nat
  constraints : List (Constraint α)
  added : Option (Constraint α)

/-- A search under way: the next free number, the solved nodes and the incumbent. -/
structure SearchState (α : Type) (k : Nat) where
  nextId : Nat
  nodes : Array (SearchNode α k)
  best : Option (Incumbent α)

namespace BranchAndBound

/-! ### Judging a relaxation -/

/-- The objective that a node has to beat. Without an incumbent it is the worst there is. -/
def incumbentObjective (sense : Sense) (best : Option (Incumbent α)) : Extended α :=
  match best, sense with
  | some incumbent, _ => .finite incumbent.objective
  | none, .maximize => .negInf
  | none, .minimize => .posInf

/-- An objective does not beat the incumbent by more than the default tolerance. -/
def cannotImprove (sense : Sense) (incumbent : Extended α) (objective : α) : Bool :=
  match sense with
  | .maximize => incumbent.isReachedDownBy Scalar.epsilon objective
  | .minimize => incumbent.isReachedBy Scalar.epsilon objective

/-- A value that is farther than the tolerance from the whole numbers around it. -/
def isFractional (tolerance value : α) : Bool :=
  let fraction := value - Scalar.floor value
  tolerance < fraction && fraction < 1 - tolerance

/-- The first variable that must be integral and has a fractional value, with that value. -/
def fractionalVariable? {k : Nat} (tolerance : α) (integral : Vector Bool k) (values : List α) :
    Option (Fin k × α) :=
  (List.finRange k).findSome? fun j =>
    match values[j]? with
    | some value =>
      if integral.get j && isFractional tolerance value then some (j, value) else none
    | none => none

/-- What becomes of a node with a given relaxation. -/
def fateOf {k : Nat} (settings : BranchAndBound α) (sense : Sense) (integral : Vector Bool k)
    (best : Option (Incumbent α)) (relaxation : Outcome α) : NodeFate α k :=
  match relaxation with
  | .infeasible => .pruned .infeasible
  | .unbounded _ => .pruned (.notSolved .unbounded)
  | .notConverged => .pruned (.notSolved .notConverged)
  | .optimal values objective =>
    let incumbent := incumbentObjective sense best
    if cannotImprove sense incumbent objective then .pruned (.bounded incumbent sense)
    else
      match fractionalVariable? settings.integerTolerance integral values with
      | some (variableIndex, value) => .branched variableIndex value
      | none => .integral

/-- A point with the integral variables rounded. -/
def roundedValues {k : Nat} (integral : Vector Bool k) (values : List α) : List α :=
  List.zipWith (fun value isIntegral => if isIntegral then Scalar.round value else value) values
    integral.toList

/-- The incumbent after a node with a given fate and relaxation. -/
def updateBest {k : Nat} (integral : Vector Bool k) (id : Nat) (best : Option (Incumbent α))
    (fate : NodeFate α k) (relaxation : Outcome α) : Option (Incumbent α) :=
  match fate, relaxation with
  | .integral, .optimal values objective =>
    some ⟨id, objective, roundedValues integral values⟩
  | _, _ => best

/-! ### Branching -/

/-- The row that reads off one variable. -/
def unitRow {k : Nat} (variableIndex : Fin k) : List α :=
  (List.finRange k).map fun j => if j = variableIndex then 1 else 0

/-- The bound that keeps a variable at or below its value rounded down. -/
def boundAbove (problem : Problem α) (variableIndex : Fin problem.numVars) (value : α) :
    Constraint α :=
  let bound := Scalar.floor value
  ⟨problem.variableName variableIndex ++ " ≤ " ++ numberText bound, unitRow variableIndex,
    .atMost, bound⟩

/-- The bound that keeps a variable at or above its value rounded up. -/
def boundBelow (problem : Problem α) (variableIndex : Fin problem.numVars) (value : α) :
    Constraint α :=
  let bound := Scalar.ceil value
  ⟨problem.variableName variableIndex ++ " ≥ " ++ numberText bound, unitRow variableIndex,
    .atLeast, bound⟩

/-- The child of a node that adds a bound. -/
def child (parent : PendingNode α) (id : Nat) (bound : Constraint α) : PendingNode α where
  id := id
  parent := some parent.id
  depth := parent.depth + 1
  constraints := parent.constraints ++ [bound]
  added := some bound

/-- The children of a node with a given fate, the first one to be visited first. -/
def childrenOf (problem : Problem α) (parent : PendingNode α) (nextId : Nat)
    (fate : NodeFate α problem.numVars) : List (PendingNode α) :=
  match fate with
  | .branched variableIndex value =>
    [child parent nextId (boundAbove problem variableIndex value),
      child parent (nextId + 1) (boundBelow problem variableIndex value)]
  | _ => []

/-! ### The search -/

/-- Solves one node. Returns the state after it and the children it leaves to be visited. -/
def visit (settings : BranchAndBound α) (problem : Problem α)
    (integral : Vector Bool problem.numVars) (pending : PendingNode α)
    (state : SearchState α problem.numVars) :
    Except ProblemError (SearchState α problem.numVars × List (PendingNode α)) := do
  let relaxation ← settings.solver.solve (problem.withConstraints pending.constraints)
  let fate := settings.fateOf problem.sense integral state.best relaxation.outcome
  let children := childrenOf problem pending state.nextId fate
  let node : SearchNode α problem.numVars :=
    { id := pending.id
      parent := pending.parent
      depth := pending.depth
      constraints := pending.constraints
      added := pending.added
      relaxation
      fate }
  return ({
    nextId := state.nextId + children.length
    nodes := state.nodes.push node
    best := updateBest integral pending.id state.best fate relaxation.outcome }, children)

/-- Visits the nodes of a stack and their descendants, at most a given number of them. -/
def explore (settings : BranchAndBound α) (problem : Problem α)
    (integral : Vector Bool problem.numVars) :
    Nat → List (PendingNode α) → SearchState α problem.numVars →
      Except ProblemError (SearchTree α problem.numVars)
  | _, [], state => .ok ⟨state.nodes, state.best, false⟩
  | 0, _ :: _, state => .ok ⟨state.nodes, state.best, true⟩
  | remaining + 1, pending :: rest, state =>
    match settings.visit problem integral pending state with
    | .error error => .error error
    | .ok (state, children) =>
      settings.explore problem integral remaining (children ++ rest) state

/-- The node a search starts from. -/
def rootNode (problem : Problem α) : PendingNode α := ⟨0, none, 0, problem.constraints, none⟩

/-- Searches with a mask that tells which variables must be integral. -/
def solveMixed (settings : BranchAndBound α) (problem : Problem α) (mask : List Bool) :
    Except ProblemError (SearchTree α problem.numVars) := do
  let _ ← problem.validate
  match vectorOf? problem.numVars mask with
  | none => .error (.integerMaskLength problem.numVars mask.length)
  | some integral =>
    settings.explore problem integral settings.maxNodes [rootNode problem] ⟨1, #[], none⟩

/-- Searches with every variable integral. -/
def solve (settings : BranchAndBound α) (problem : Problem α) :
    Except ProblemError (SearchTree α problem.numVars) :=
  settings.solveMixed problem (List.replicate problem.numVars true)

end BranchAndBound

end LinearProgramming
