/-
This file records the iterations of the revised simplex method and the result of its run.

An iteration is a basis with its inverse, everything that is priced from them, and the decision
taken. The parts of a decision exist only where the decision has them.
-/

import LinearProgramming.BigM.Text
import LinearProgramming.DenseMatrix
import LinearProgramming.Simplex.Solution

namespace LinearProgramming

/-- What an iteration decides: that no column improves the objective, that the cap is reached,
that the entering column can grow without limit, or to exchange a basic column. -/
inductive RevisedDecision (α : Type) (m n : Nat) where
  | optimal
  | notConverged
  | unbounded (entering : Fin n) (direction : Vector α m) (ratios : Vector (Option α) m)
  | exchange (entering : Fin n) (reducedCost : BigM α) (direction : Vector α m)
      (ratios : Vector (Option α) m) (leaving : Fin m) (theta : α)

namespace RevisedDecision

variable {α : Type} {m n : Nat}

/-- The entering column. -/
def entering? : RevisedDecision α m n → Option (Fin n)
  | optimal | notConverged => none
  | unbounded entering _ _ | exchange entering _ _ _ _ _ => some entering

/-- The inverse times the entering column. -/
def direction? : RevisedDecision α m n → Option (Vector α m)
  | optimal | notConverged => none
  | unbounded _ direction _ | exchange _ _ direction _ _ _ => some direction

/-- The ratios of the rows with a positive entry of the direction. -/
def ratios? : RevisedDecision α m n → Option (Vector (Option α) m)
  | optimal | notConverged => none
  | unbounded _ _ ratios | exchange _ _ _ ratios _ _ => some ratios

/-- The row whose basic column leaves. -/
def leaving? : RevisedDecision α m n → Option (Fin m)
  | exchange _ _ _ _ leaving _ => some leaving
  | _ => none

/-- How far the entering unknown grows. -/
def theta? : RevisedDecision α m n → Option α
  | exchange _ _ _ _ _ theta => some theta
  | _ => none

/-- The decision as one word. -/
def word : RevisedDecision α m n → String
  | optimal => "Optimal"
  | notConverged => "NotConverged"
  | unbounded _ _ _ => "Unbounded"
  | exchange _ _ _ _ _ _ => "Iteration"

end RevisedDecision

/-- One iteration: the basis, its inverse, the levels of the basic unknowns, their costs, the
reduced costs of the other columns in order, the objective in the form that is made small, and
the decision. -/
structure RevisedStep (α : Type) (m n : Nat) where
  iteration : Nat
  basis : Vector (Fin n) m
  inverse : DenseMatrix α m m
  levels : Vector α m
  basicCosts : Vector (BigM α) m
  reducedCosts : List (Fin n × BigM α)
  objective : BigM α
  decision : RevisedDecision α m n

/-- The decision of an iteration as a sentence. -/
def RevisedStep.description {α : Type} [Scalar α] {m n : Nat} (names : Vector String n)
    (step : RevisedStep α m n) : String :=
  match step.decision with
  | .optimal => "Optimal: no negative reduced cost, Z = " ++ step.objective.text
  | .notConverged => "Max iterations reached"
  | .unbounded entering _ _ => "Unbounded: " ++ names.get entering ++ " can increase without limit"
  | .exchange entering reducedCost _ _ leaving theta =>
    s!"Iteration {step.iteration + 1}: " ++ names.get entering ++ " enters (reduced cost " ++
      reducedCost.text ++ "), " ++ names.get (step.basis.get leaving) ++ " leaves, θ = " ++
      numberText theta

/-- A finished run of the revised method, with names for its columns. -/
structure RevisedSolution (α : Type) where
  numRows : Nat
  numColumns : Nat
  names : Vector String numColumns
  earlierSteps : Array (RevisedStep α numRows numColumns)
  finalStep : RevisedStep α numRows numColumns
  outcome : Outcome α

namespace RevisedSolution

variable {α : Type}

/-- The iterations in order, each of which but the last made an exchange. -/
def steps (solution : RevisedSolution α) :
    List (RevisedStep α solution.numRows solution.numColumns) :=
  solution.earlierSteps.toList ++ [solution.finalStep]

/-- The number of exchanges. -/
def iterations (solution : RevisedSolution α) : Nat := solution.finalStep.iteration

/-- How the run ended. -/
def status (solution : RevisedSolution α) : Status := solution.outcome.status

/-- The run ended with an optimal point. -/
def isOptimal (solution : RevisedSolution α) : Bool := solution.status == .optimal

end RevisedSolution

end LinearProgramming
