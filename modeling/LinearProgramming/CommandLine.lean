/-
This file runs the commands of the command line on the content of a problem file.

A command ends with a report or a document and an exit code, which is zero when an optimum was
found, or with an error. Reading the file and writing the answer are left to the caller.
-/

import LinearProgramming.CommandLine.Arguments
import LinearProgramming.CommandLine.Documents
import LinearProgramming.CommandLine.ReadFailure
import LinearProgramming.CommandLine.Report
import LinearProgramming.ProblemFile

namespace LinearProgramming.CommandLine

/-- Why a command has no result. -/
inductive CommandError where
  | unreadable (path : String) (failure : ReadFailure)
  | malformed
  | variableNames (expected found : Nat)
  | refused (error : ProblemError)

/-- The reason as a sentence. -/
def CommandError.message : CommandError → String
  | unreadable path failure => "Error reading " ++ path ++ ": " ++ failure.message
  | malformed => "Invalid problem file"
  | variableNames expected found =>
    s!"{found} variable names given for {expected} objective coefficients"
  | refused error => error.message

/-- What a command writes. -/
inductive Output where
  | text (characters : String)
  | document (value : Document)

/-- The result of a command: what it writes, and whether it found an optimum. -/
structure Result where
  output : Output
  found : Bool

/-- The exit code of a command: zero with an optimum, and one without or after an error. -/
def exitCode : Except CommandError Result → Nat
  | .ok result => if result.found then 0 else 1
  | .error _ => 1

/-- The exit code when the arguments are not understood. -/
def usageExitCode : Nat := 2

/-- The problem in the content of a file, with the marks of its integral variables. -/
def load (path : String) (content : Except ReadFailure ByteArray) :
    Except CommandError (Problem Float × List Bool) := do
  let bytes ← content.mapError (CommandError.unreadable path)
  match String.fromUTF8? bytes with
  | none => throw (.unreadable path .notText)
  | some text =>
    match ProblemFile.read? text with
    | none => throw .malformed
    | some file =>
      match file.toProblem? with
      | none =>
        throw (.variableNames file.objective.length ((file.variableNames.map List.length).getD 0))
      | some problem =>
        let _ ← problem.validate.mapError .refused
        return (problem, file.integralMask)

/-- The result of a command on a problem. -/
def perform (json : Bool) (problem : Problem Float) (integral : List Bool) :
    Command → Except ProblemError Result
  | .solve steps bland maxIterations => do
    let solver : Solver Float :=
      { maxIterations := maxIterations, rule := if bland then .bland else .dantzig }
    let solution ← solver.solve problem
    let output := if json then .document (solutionDocument solution)
      else .text (solutionText problem solution steps)
    return ⟨output, solution.isOptimal⟩
  | .branch maxNodes => do
    let unlimited : BranchAndBound Float := {}
    let settings := { unlimited with maxNodes := maxNodes.getD unlimited.maxNodes }
    let tree ← settings.solveMixed problem integral
    let output := if json then .document (searchDocument tree)
      else .text (searchText problem tree)
    return ⟨output, tree.best.isSome⟩
  | .revised steps => do
    let engine ← RevisedSimplex.ofProblem problem
    let solution := engine.solve
    let output := if json then .document (revisedDocument solution)
      else .text (revisedText problem solution steps)
    return ⟨output, solution.isOptimal⟩
  | .sensitivity rhs objective => do
    let analysis ← Sensitivity.analyze problem {}
    let rhsAnswers ← rhs.mapM fun change => analysis.changeRhs change.1 change.2
    let objectiveAnswers ← objective.mapM fun change => analysis.changeCost change.1 change.2
    let answers := rhsAnswers ++ objectiveAnswers
    let output := if json then .document (sensitivityDocument analysis answers)
      else .text (sensitivityText analysis answers)
    return ⟨output, true⟩

/-- Runs an invocation on the content of its file. -/
def Invocation.run (invocation : Invocation) (content : Except ReadFailure ByteArray) :
    Except CommandError Result := do
  let (problem, integral) ← load invocation.file content
  (perform invocation.json problem integral invocation.command).mapError .refused

/-- How the command line is used. -/
def usage : String :=
  lines ["Big-M simplex, branch-and-bound and sensitivity analysis for linear programs", "",
    "Usage: tableau [-v] <COMMAND>", "",
    "Commands:",
    "  solve <FILE> [--format pretty|json] [--steps] [--bland] [--max-iterations N]",
    "  branch <FILE> [--format pretty|json] [--max-nodes N]",
    "  revised <FILE> [--format pretty|json] [--steps]",
    "  sensitivity <FILE> [--format pretty|json] [--rhs INDEX=VALUE]..." ++
      " [--objective INDEX=VALUE]..."]

end LinearProgramming.CommandLine
