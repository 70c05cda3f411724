/-
This file runs the tableau simplex method on a problem.

A run starts from the slack and artificial columns and pivots until no column improves the
objective, a column can grow without limit, or the cap on pivots is reached. It can be driven
one step at a time or to its end, and its solution can be asked for at any moment.
-/

import LinearProgramming.PivotRule
import LinearProgramming.Simplex.Solution

namespace LinearProgramming

variable {α : Type} [Scalar α]

/-- The settings of the method: the cap on pivots, the tolerance of every comparison made during
a run, and the pivot rule. -/
structure Solver (α : Type) [Scalar α] where
  maxIterations : Nat := 100
  tolerance : α := Scalar.epsilon
  rule : PivotRule := .dantzig

/-- What one call to `Run.step` did. -/
inductive Progress (n : Nat) where
  | pivoted (entering leaving : Fin n)
  | finished (status : Status)
  deriving DecidableEq

/-- A run of the method on a standard form. The last step holds the current tableau. -/
structure Run (form : StandardForm α) where
  solver : Solver α
  sense : Sense
  earlierSteps : Array (Step α form.numRows form.numColumns)
  lastStep : Step α form.numRows form.numColumns
  status : Option Status
  iterations : Nat

namespace Run

variable {form : StandardForm α}

/-- A run before its first pivot. -/
def initial (solver : Solver α) (sense : Sense) (form : StandardForm α) : Run form where
  solver := solver
  sense := sense
  earlierSteps := #[]
  lastStep := ⟨Tableau.initial form, .start (0 < form.numArtificial), none⟩
  status := none
  iterations := 0

/-- The current tableau. -/
def tableau (run : Run form) : Tableau α form.numRows form.numColumns := run.lastStep.tableau

/-- The steps so far. -/
def steps (run : Run form) : List (Step α form.numRows form.numColumns) :=
  run.earlierSteps.toList ++ [run.lastStep]

/-- The values of the variables at the current basis. -/
def values (run : Run form) : List α := (List.range form.numVars).map run.tableau.valueOf

/-- The objective at the current basis in the author's sense. -/
def objectiveValue (run : Run form) : α := run.sense.orient run.tableau.objective.value

/-! ### One step -/

/-- An artificial column is basic with a positive value. -/
def hasPositiveArtificial (run : Run form) : Bool :=
  (List.finRange form.numRows).any fun row =>
    form.isArtificial (run.tableau.basis.get row) && run.solver.tolerance < run.tableau.rhs row

/-- The run with its end recorded. -/
def finish (run : Run form) (status : Status) :
    Progress form.numColumns × Run form :=
  (.finished status, { run with status := some status })

/-- The run after a pivot. The last step is marked with the choice, and the new tableau becomes
the last step. -/
def pivotAt (run : Run form) (choice : Pivot α form.numRows form.numColumns) :
    Progress form.numColumns × Run form :=
  let leaving := run.tableau.basis.get choice.row
  let tolerance := run.solver.tolerance
  let operations := run.tableau.pivotOperations tolerance choice.row choice.column
  (.pivoted choice.column leaving,
    { run with
      earlierSteps := run.earlierSteps.push { run.lastStep with pivot := some choice }
      lastStep := {
        tableau := run.tableau.pivot tolerance choice.row choice.column
        origin := .pivoted (run.iterations + 1) leaving choice.column operations
        pivot := none }
      iterations := run.iterations + 1 })

/-- The run with one more step that shows a column without ratios. -/
def showUnbounded (run : Run form) (ratios : Vector (Option α) form.numRows) : Run form :=
  { run with
    earlierSteps := run.earlierSteps.push run.lastStep
    lastStep := ⟨run.tableau, .unbounded ratios, none⟩ }

/-- Makes at most one pivot. A run that has finished stays as it is. -/
def step (run : Run form) : Progress form.numColumns × Run form :=
  match run.status with
  | some status => (.finished status, run)
  | none =>
    match run.solver.rule.entering run.solver.tolerance run.tableau.objectiveRow with
    | none => run.finish (if run.hasPositiveArtificial then .infeasible else .optimal)
    | some column =>
      if run.solver.maxIterations ≤ run.iterations then run.finish .notConverged
      else
        let ratios := run.tableau.ratios run.solver.tolerance column
        match run.solver.rule.leaving run.solver.tolerance run.tableau.basis ratios with
        | none => (run.showUnbounded ratios).finish .unbounded
        | some row => run.pivotAt ⟨row, column, ratios⟩

/-! ### To the end -/

/-- Steps until the run finishes, at most a given number of times. -/
def stepAtMost : Nat → Run form → Run form
  | 0, run => run
  | count + 1, run =>
    match run.step with
    | (.finished _, run) => run
    | (.pivoted _ _, run) => stepAtMost count run

/-- Steps until the run finishes. The cap leaves that many pivots and one step to stop. -/
def complete (run : Run form) : Run form :=
  run.stepAtMost (run.solver.maxIterations - run.iterations + 1)

/-- What the run has found. A run that has not finished counts as not converged. -/
def outcome (run : Run form) : Outcome α :=
  match run.status with
  | some .optimal => .optimal run.values run.objectiveValue
  | some .infeasible => .infeasible
  | some .unbounded => .unbounded run.sense
  | some .notConverged | none => .notConverged

/-- The run as a solution. -/
def solution (run : Run form) : Solution α :=
  ⟨form, run.earlierSteps, run.lastStep, run.outcome, run.iterations⟩

end Run

namespace Solver

/-- A run on a problem before its first pivot, with the standard form of the problem. -/
def start (solver : Solver α) (problem : Problem α) :
    Except ProblemError ((form : StandardForm α) × Run form) := do
  let ⟨valid⟩ ← problem.validate
  let form := StandardForm.ofProblem problem valid
  return ⟨form, Run.initial solver problem.sense form⟩

/-- The solution of a problem. -/
def solve (solver : Solver α) (problem : Problem α) : Except ProblemError (Solution α) := do
  let started ← solver.start problem
  return started.2.complete.solution

end Solver

end LinearProgramming
