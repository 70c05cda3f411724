/-
This file runs the tableau method on lists and tables of any size.

A bare run is driven by the same calls as a run whose indices are in range by their types, and keeps
its whole record. One step of it looks up the entering column, the ratios, the basic columns and
the names it writes down. Started from the parts of a run it finds all of them and reaches the
parts of the next run, so however a run is driven no look-up of it ever misses.
-/

import LinearProgramming.Proofs.Bounds.Tableau

namespace LinearProgramming

variable {α : Type} [Scalar α]

namespace Bare

/-! ### Records -/

/-- A tableau of a run with its title, the row operations that led to it, and the pivot and the
ratios that were looked at on it. -/
structure Step (α : Type) where
  tableau : Tableau α
  description : String
  operations : List String
  pivot : Option (Nat × Nat)
  ratios : Option (List (Option α))

/-- What one step did. -/
inductive Progress where
  | pivoted (entering leaving : Nat)
  | finished (status : Status)

/-- A run of the method. -/
structure Run (α : Type) [Scalar α] where
  solver : Solver α
  sense : Sense
  form : Form α
  tableau : Tableau α
  steps : List (Step α)
  status : Option Status
  iterations : Nat

/-- The result of a run. -/
structure Solution (α : Type) where
  steps : List (Step α)
  outcome : Outcome α
  iterations : Nat

namespace Run

/-- A run before its first pivot. -/
def initial? (solver : Solver α) (sense : Sense) (form : Form α) : Option (Run α) := do
  let tableau ← Tableau.initial? form
  let title := if 0 < form.artificialOf.countP Option.isSome then "Initial Tableau (Big M)"
    else "Initial Tableau"
  return ⟨solver, sense, form, tableau, [⟨tableau, title, [], none, none⟩], none, 0⟩

/-! ### One step -/

/-- The run with its end recorded. Its objective is read for the log. -/
def finish? (run : Run α) (status : Status) : Option (Progress × Run α) := do
  let _ ← run.tableau.objective?
  return (.finished status, { run with status := some status })

/-- The first row with an artificial column at a positive value. -/
def stuckRow? (run : Run α) : Option (Option Nat) :=
  (List.range run.tableau.basis.length).findM? fun row => do
    if ← run.form.isArtificial? (← run.tableau.basis[row]?) then
      return run.solver.tolerance < (← run.tableau.rhs? row)
    else return false

/-- The run with its end recorded where no column improves the objective. The name of the column
that an infeasible run is stuck with is read for the log. -/
def finishOptimal? (run : Run α) : Option (Progress × Run α) := do
  match ← run.stuckRow? with
  | some row => do
    let _ ← run.tableau.columnHeaders[(← run.tableau.basis[row]?)]?
    run.finish? .infeasible
  | none => run.finish? .optimal

/-- The run with one more step that shows a column without ratios. -/
def showUnbounded (run : Run α) (ratios : List (Option α)) : Run α :=
  { run with
    steps := run.steps ++ [⟨run.tableau, "Unbounded Solution Detected", [], none, some ratios⟩] }

/-- The run after a pivot. -/
def pivotAt? (run : Run α) (row column : Nat) (ratios : List (Option α)) :
    Option (Progress × Run α) := do
  let leaving ← run.tableau.basis[row]?
  let leavingName ← run.tableau.rowHeaders[row + 1]?
  let enteringName ← run.tableau.columnHeaders[column]?
  let operations ← run.tableau.operations? run.solver.tolerance row column
  let tableau ← run.tableau.pivot? run.solver.tolerance row column
  let title := s!"Iteration {run.iterations + 1}: Pivot (Leave " ++ leavingName ++ ", Enter " ++
    enteringName ++ ")"
  let marked := run.steps.modifyLast fun last =>
    { last with pivot := some (row, column), ratios := some ratios }
  return (.pivoted column leaving,
    { run with
      tableau
      steps := marked ++ [⟨tableau, title, operations, none, none⟩]
      iterations := run.iterations + 1 })

/-- Lets a column enter, if the cap allows it. Its name is read for the log. -/
def enter? (run : Run α) (column : Nat) : Option (Progress × Run α) :=
  if run.solver.maxIterations ≤ run.iterations then run.finish? .notConverged
  else do
    let ratios ← run.tableau.ratios? run.solver.tolerance column
    let _ ← run.tableau.columnHeaders[column]?
    match ← Tableau.leaving? run.solver.rule run.solver.tolerance run.tableau.basis ratios with
    | none => (run.showUnbounded ratios).finish? .unbounded
    | some row => run.pivotAt? row column ratios

/-- Makes at most one pivot. -/
def step? (run : Run α) : Option (Progress × Run α) :=
  match run.status with
  | some status => some (.finished status, run)
  | none => do
    match ← run.tableau.entering? run.solver.rule run.solver.tolerance with
    | none => run.finishOptimal?
    | some column => run.enter? column

/-! ### To the end -/

/-- Steps until the run finishes, at most a given number of times. -/
def stepAtMost? : Nat → Run α → Option (Run α)
  | 0, run => some run
  | count + 1, run => do
    match ← run.step? with
    | (.finished _, run) => return run
    | (.pivoted _ _, run) => stepAtMost? count run

/-- Steps until the run finishes. -/
def complete? (run : Run α) : Option (Run α) :=
  run.stepAtMost? (run.solver.maxIterations - run.iterations + 1)

/-- The run after a call. -/
def call? (run : Run α) : LinearProgramming.Run.Call → Option (Run α)
  | .step => run.step?.map Prod.snd
  | .complete => run.complete?

/-- The run after a sequence of calls. -/
def drive? (run : Run α) (calls : List LinearProgramming.Run.Call) : Option (Run α) :=
  calls.foldlM call? run

/-- The values of the variables at the current basis. -/
def values? (run : Run α) : Option (List α) :=
  (List.range run.form.numVars).mapM run.tableau.valueOf?

/-- The objective at the current basis in the author's sense. -/
def objectiveValue? (run : Run α) : Option α := do
  return run.sense.orient (← run.tableau.objective?).value

/-- What the run has found. -/
def outcome? (run : Run α) : Option (Outcome α) :=
  match run.status with
  | some .optimal => do return .optimal (← run.values?) (← run.objectiveValue?)
  | some .infeasible => some .infeasible
  | some .unbounded => some (.unbounded run.sense)
  | some .notConverged | none => some .notConverged

/-- The run as a solution. -/
def solution? (run : Run α) : Option (Solution α) := do
  return ⟨run.steps, ← run.outcome?, run.iterations⟩

end Run

/-! ### Runs on problems -/

/-- A run on a problem before its first pivot. Only a problem without a fault is looked at. -/
def start? (solver : Solver α) (problem : Problem α) : Option (Except ProblemError (Run α)) :=
  match problem.validate with
  | .error fault => some (.error fault)
  | .ok _ => do
    return .ok (← Run.initial? solver problem.sense (← Form.ofProblem? problem))

/-- A run on a problem after a sequence of calls. -/
def drive? (solver : Solver α) (problem : Problem α) (calls : List LinearProgramming.Run.Call) :
    Option (Except ProblemError (Run α)) := do
  match ← start? solver problem with
  | .error fault => return .error fault
  | .ok run => return .ok (← run.drive? calls)

/-- The solution of a problem. -/
def solve? (solver : Solver α) (problem : Problem α) :
    Option (Except ProblemError (Solution α)) := do
  match ← start? solver problem with
  | .error fault => return .error fault
  | .ok run => return .ok (← (← run.complete?).solution?)

end Bare

/-! ### The parts of a run -/

/-- A step with the names it was written down with. -/
def Step.bare {m n : Nat} (names : Vector String n) (step : Step α m n) : Bare.Step α where
  tableau := step.tableau.bare names
  description := step.description names
  operations := step.operations.map RowOperation.text
  pivot := step.pivot.map fun pivot => (pivot.row.val, pivot.column.val)
  ratios := step.ratios.map Vector.toList

omit [Scalar α] in
/-- What one step did, with columns given by their numbers. -/
def Progress.bare {n : Nat} : Progress n → Bare.Progress
  | pivoted entering leaving => .pivoted entering leaving
  | finished status => .finished status

namespace Run

variable {form : StandardForm α}

/-- The parts of a run. -/
def bare (run : Run form) : Bare.Run α where
  solver := run.solver
  sense := run.sense
  form := form.bare
  tableau := run.tableau.bare form.names
  steps := run.steps.map (Step.bare form.names)
  status := run.status
  iterations := run.iterations

@[simp] theorem solver_bare (run : Run form) : run.bare.solver = run.solver := rfl

@[simp] theorem form_bare (run : Run form) : run.bare.form = form.bare := rfl

@[simp] theorem tableau_bare (run : Run form) :
    run.bare.tableau = run.tableau.bare form.names := rfl

/-! ### Steps that succeed -/

theorem initial?_bare (solver : Solver α) (sense : Sense) (form : StandardForm α) :
    Bare.Run.initial? solver sense form.bare = some (initial solver sense form).bare := by
  have artificials : form.bare.artificialOf.countP Option.isSome = form.numArtificial := by
    rw [StandardForm.bare, List.countP_map, StandardForm.numArtificial]
    exact List.countP_congr fun column _ => by cases column <;> simp
  have title : (if 0 < form.numArtificial then "Initial Tableau (Big M)" else "Initial Tableau") =
      (initial solver sense form).lastStep.description form.names := by
    by_cases some : 0 < form.numArtificial <;> simp [initial, Step.description, some]
  rw [Bare.Run.initial?, Tableau.initial?_bare, artificials, title]
  rfl

theorem finish?_bare (run : Run form) (status : Status) :
    run.bare.finish? status = some (Prod.map Progress.bare bare (run.finish status)) := by
  rw [Bare.Run.finish?, tableau_bare, Tableau.objective?_bare]
  rfl

/-- An artificial column is basic in a row with a positive value. -/
def isStuckAt (run : Run form) (row : Fin form.numRows) : Bool :=
  form.isArtificial (run.tableau.basis.get row) && run.solver.tolerance < run.tableau.rhs row

theorem stuckRow?_bare (run : Run form) : run.bare.stuckRow? =
    some (((List.finRange form.numRows).find? run.isStuckAt).map Fin.val) := by
  have rows : run.bare.tableau.basis.length = form.numRows := by simp [Tableau.bare]
  rw [Bare.Run.stuckRow?, rows]
  refine findM?_range fun row => ?_
  simp only [tableau_bare, form_bare, solver_bare, Tableau.getElem?_basis, Tableau.rhs?_bare,
    StandardForm.isArtificial?_bare, Option.bind_eq_bind, Option.bind_some, Option.pure_def,
    isStuckAt]
  cases form.isArtificial (run.tableau.basis.get row) <;> rfl

theorem finishOptimal?_bare (run : Run form) : run.bare.finishOptimal? =
    some (Prod.map Progress.bare bare
      (run.finish (if run.hasPositiveArtificial then .infeasible else .optimal))) := by
  have stuck : run.hasPositiveArtificial =
      ((List.finRange form.numRows).find? run.isStuckAt).isSome :=
    Bool.eq_iff_iff.2 (List.any_eq_true.trans List.find?_isSome.symm)
  rw [Bare.Run.finishOptimal?, stuckRow?_bare, stuck]
  cases (List.finRange form.numRows).find? run.isStuckAt with
  | none => exact run.finish?_bare .optimal
  | some row =>
    simp only [Option.map_some, tableau_bare, Tableau.getElem?_basis,
      Tableau.getElem?_columnHeaders, Option.bind_eq_bind, Option.bind_some]
    exact run.finish?_bare .infeasible

theorem pivotAt?_bare (run : Run form) (choice : Pivot α form.numRows form.numColumns) :
    run.bare.pivotAt? choice.row choice.column choice.ratios.toList =
      some (Prod.map Progress.bare bare (run.pivotAt choice)) := by
  have leavingName : (run.tableau.bare form.names).rowHeaders[choice.row.val + 1]? =
      some (form.names.get (run.tableau.basis.get choice.row)) :=
    getElem?_map_toList form.names.get run.tableau.basis choice.row
  -- the step before the pivot is the last one written down, and it gets the choice added
  have marked : (run.steps.map (Step.bare form.names)).modifyLast (fun last =>
        { last with
          pivot := some (choice.row.val, choice.column.val)
          ratios := some choice.ratios.toList }) =
      (run.earlierSteps.push { run.lastStep with pivot := some choice }).toList.map
        (Step.bare form.names) := by
    rw [Run.steps, List.map_append, Array.toList_push, List.map_append]
    exact List.modifyLast_concat ..
  rw [Bare.Run.pivotAt?]
  simp only [tableau_bare, solver_bare, Tableau.getElem?_basis, leavingName,
    Tableau.getElem?_columnHeaders, Tableau.operations?_bare, Tableau.pivot?_bare,
    Option.bind_eq_bind, Option.bind_some, Option.pure_def]
  rw [show run.bare.steps = run.steps.map (Step.bare form.names) from rfl, marked]
  have recorded : (run.pivotAt choice).2.steps.map (Step.bare form.names) =
      (run.earlierSteps.push { run.lastStep with pivot := some choice }).toList.map
        (Step.bare form.names) ++ [(run.pivotAt choice).2.lastStep.bare form.names] :=
    List.map_append
  exact congrArg some (Prod.ext rfl (congrArg (Bare.Run.mk _ _ _ _ · _ _) recorded.symm))

theorem showUnbounded_bare (run : Run form) (ratios : Vector (Option α) form.numRows) :
    run.bare.showUnbounded ratios.toList = (run.showUnbounded ratios).bare := by
  have recorded : (run.showUnbounded ratios).steps.map (Step.bare form.names) =
      run.steps.map (Step.bare form.names) ++
        [(run.showUnbounded ratios).lastStep.bare form.names] := by
    rw [Run.steps, List.map_append, showUnbounded, Array.toList_push]
    rfl
  exact congrArg (Bare.Run.mk _ _ _ _ · _ _) recorded.symm

theorem enter?_bare (run : Run form) (column : Fin form.numColumns) :
    run.bare.enter? column = some (Prod.map Progress.bare bare (
      if run.solver.maxIterations ≤ run.iterations then run.finish .notConverged
      else
        let ratios := run.tableau.ratios run.solver.tolerance column
        match run.solver.rule.leaving run.solver.tolerance run.tableau.basis ratios with
        | none => (run.showUnbounded ratios).finish .unbounded
        | some row => run.pivotAt ⟨row, column, ratios⟩)) := by
  rw [Bare.Run.enter?]
  show (if run.solver.maxIterations ≤ run.iterations then _ else _) = _
  split
  · exact run.finish?_bare .notConverged
  · simp only [tableau_bare, solver_bare, Tableau.ratios?_bare, Tableau.getElem?_columnHeaders,
      Option.bind_eq_bind, Option.bind_some]
    show (Bare.Tableau.leaving? _ _ (run.tableau.basis.toList.map Fin.val) _).bind _ = _
    rw [Tableau.leaving?_bare, Option.bind_some]
    cases run.solver.rule.leaving run.solver.tolerance run.tableau.basis
      (run.tableau.ratios run.solver.tolerance column) with
    | none =>
      show (run.bare.showUnbounded _).finish? .unbounded = _
      rw [showUnbounded_bare]
      exact finish?_bare _ .unbounded
    | some row => exact run.pivotAt?_bare ⟨row, column, _⟩

/-- One step of the parts of a run makes the parts of its next state. -/
theorem step?_bare (run : Run form) :
    run.bare.step? = some (Prod.map Progress.bare bare run.step) := by
  cases ended : run.status with
  | some status =>
    have ended' : run.bare.status = some status := ended
    rw [Bare.Run.step?, ended', step, ended]
    rfl
  | none =>
    have ended' : run.bare.status = none := ended
    rw [Bare.Run.step?, ended', step, ended]
    simp only [tableau_bare, solver_bare, Tableau.entering?_bare, Option.bind_eq_bind,
      Option.bind_some]
    cases run.solver.rule.entering run.solver.tolerance run.tableau.objectiveRow with
    | none => exact run.finishOptimal?_bare
    | some column => exact run.enter?_bare column

/-! ### Runs that succeed -/

theorem stepAtMost?_bare (count : Nat) (run : Run form) :
    run.bare.stepAtMost? count = some (run.stepAtMost count).bare := by
  induction count generalizing run with
  | zero => rfl
  | succ count inductionHypothesis =>
    rw [Bare.Run.stepAtMost?, step?_bare, stepAtMost]
    obtain ⟨progress, next⟩ := run.step
    cases progress with
    | finished status => rfl
    | pivoted entering leaving => exact inductionHypothesis next

theorem complete?_bare (run : Run form) : run.bare.complete? = some run.complete.bare :=
  stepAtMost?_bare _ run

theorem call?_bare (run : Run form) (call : Call) :
    run.bare.call? call = some (run.call call).bare := by
  cases call with
  | step => rw [Bare.Run.call?, step?_bare]; rfl
  | complete => exact run.complete?_bare

/-- However a run is driven, its parts are driven along with it. -/
theorem drive?_bare (run : Run form) (calls : List Call) :
    run.bare.drive? calls = some (run.drive calls).bare := by
  induction calls generalizing run with
  | nil => rfl
  | cons first rest inductionHypothesis =>
    rw [Bare.Run.drive?, List.foldlM_cons, call?_bare]
    exact inductionHypothesis (run.call first)

theorem values?_bare (run : Run form) : run.bare.values? = some run.values :=
  mapM_of_reads fun number _ => Tableau.valueOf?_bare form.names run.tableau number

theorem objectiveValue?_bare (run : Run form) :
    run.bare.objectiveValue? = some run.objectiveValue := by
  rw [Bare.Run.objectiveValue?, tableau_bare, Tableau.objective?_bare]
  rfl

theorem outcome?_bare (run : Run form) : run.bare.outcome? = some run.outcome := by
  have status : run.bare.status = run.status := rfl
  rw [Bare.Run.outcome?, values?_bare, objectiveValue?_bare, outcome, status]
  cases run.status with
  | none => rfl
  | some status => cases status <;> rfl

end Run

/-- The parts of a solution. -/
def Solution.bare (solution : Solution α) : Bare.Solution α where
  steps := solution.steps.map (Step.bare solution.form.names)
  outcome := solution.outcome
  iterations := solution.iterations

theorem Run.solution?_bare {form : StandardForm α} (run : Run form) :
    run.bare.solution? = some run.solution.bare := by
  rw [Bare.Run.solution?, outcome?_bare]
  rfl

/-! ### Runs on problems -/

namespace Solver

theorem start?_bare (solver : Solver α) (problem : Problem α) :
    Bare.start? solver problem =
      some ((solver.start problem).map fun started => started.2.bare) := by
  rw [Bare.start?, start]
  cases problem.validate with
  | error fault => rfl
  | ok evidence =>
    obtain ⟨valid⟩ := evidence
    rw [StandardForm.ofProblem?_bare problem valid, Option.bind_eq_bind, Option.bind_some,
      Run.initial?_bare]
    rfl

theorem drive?_bare (solver : Solver α) (problem : Problem α) (calls : List Run.Call) :
    Bare.drive? solver problem calls =
      some ((solver.start problem).map fun started => (started.2.drive calls).bare) := by
  rw [Bare.drive?, start?_bare]
  cases solver.start problem with
  | error fault => rfl
  | ok started =>
    show (started.2.bare.drive? calls).bind _ = _
    rw [Run.drive?_bare]
    rfl

theorem solve?_bare (solver : Solver α) (problem : Problem α) :
    Bare.solve? solver problem = some ((solver.solve problem).map Solution.bare) := by
  rw [Bare.solve?, start?_bare, solve]
  cases solver.start problem with
  | error fault => rfl
  | ok started =>
    show started.2.bare.complete?.bind _ = _
    rw [Run.complete?_bare, Option.bind_some, Run.solution?_bare]
    rfl

end Solver

end LinearProgramming
