/-
This file proves that the steps of a tableau run are a faithful record of it, whatever its numbers
compute.

A run can be driven one step at a time or to its end, in any mixture of the two. A step of the run
never changes what was recorded, except that it marks the last tableau with the pivot it chose
there. So the record has one tableau for each pivot and the one before it, each follows from the
one before by the marked pivot, and the run stands at the last of them; an unbounded run repeats
it with the ratios that showed no row. As a finished run does not move, all ways of driving a run
to its end come to the same solution.
-/

import Mathlib
import LinearProgramming.Proofs.TableauRun

namespace LinearProgramming

variable {α : Type} [Scalar α]

/-- A pivot replaces the name before its row. -/
theorem Tableau.rowHeaders_pivot {m n : Nat} (tolerance : α) (tableau : Tableau α m n)
    (row : Fin m) (column : Fin n) (names : Vector String n) :
    (tableau.pivot tolerance row column).rowHeaders names =
      (tableau.rowHeaders names).set (row + 1) (names.get column) := by
  have basis : (tableau.pivot tolerance row column).basis.toList =
      tableau.basis.toList.set row column := Vector.toList_set row.isLt
  unfold rowHeaders
  rw [basis, List.map_set, List.set_cons_succ]

/-- A tableau of the record is followed by another: it is marked with a pivot whose row has a ratio,
and the next tableau is what that pivot makes of it. The pivot is counted, its column takes the
place of the basic column of its row, and so does the name of the column before that row. -/
structure Step.Exchanges {m n : Nat} (tolerance : α) (names : Vector String n) (number : Nat)
    (step next : Step α m n) (pivot : Pivot α m n) : Prop where
  marked : step.pivot = some pivot
  ratios : step.ratios = some pivot.ratios
  present : ∃ ratio, pivot.ratios.get pivot.row = some ratio
  tableau : next.tableau = step.tableau.pivot tolerance pivot.row pivot.column
  origin : next.origin = .pivoted number (step.tableau.basis.get pivot.row) pivot.column
    (step.tableau.pivotOperations tolerance pivot.row pivot.column)
  basis : next.tableau.basis = replaceEntry step.tableau.basis pivot.row pivot.column
  headers : next.tableau.rowHeaders names =
    (step.tableau.rowHeaders names).set (pivot.row + 1) (names.get pivot.column)

namespace Run

variable {form : StandardForm α}

/-- The steps of a run are kept in another: each is still there with its tableau and its origin, and
all but the last as they were. -/
def KeepsSteps (run later : Run form) : Prop :=
  ∀ i step, run.steps[i]? = some step → ∃ kept, later.steps[i]? = some kept ∧
    kept.tableau = step.tableau ∧ kept.origin = step.origin ∧
      (i + 1 < run.steps.length → kept = step)

/-- The steps of a run are a record of its pivots. There is one tableau before each pivot and one
after the last, which the run stands at; an unbounded run repeats it with ratios that are all
absent. -/
structure IsRecorded (run : Run form) : Prop where
  iterations_le : run.iterations ≤ run.solver.maxIterations
  length : run.steps.length =
    1 + run.iterations + if run.status = some .unbounded then 1 else 0
  exchange : ∀ k < run.iterations, ∃ step next pivot,
    run.steps[k]? = some step ∧ run.steps[k + 1]? = some next ∧
      step.Exchanges run.solver.tolerance form.names (k + 1) next pivot
  headers : ∀ step ∈ run.steps, step.tableau.rowHeaders form.names =
    "Z" :: step.tableau.basis.toList.map form.names.get
  current : ∃ step, run.steps[run.iterations]? = some step ∧ step.pivot = none ∧
    step.tableau = run.tableau
  unbounded : run.status = some .unbounded → ∃ ratios : Vector (Option α) form.numRows,
    run.steps[run.iterations + 1]? = some ⟨run.tableau, .unbounded ratios, none⟩ ∧
      ∀ row, ratios.get row = none

/-! ### What a step keeps of the record -/

theorem length_steps (run : Run form) : run.steps.length = run.earlierSteps.size + 1 := by
  rw [steps, List.length_append, Array.length_toList, List.length_singleton]

theorem getElem?_steps_size (run : Run form) :
    run.steps[run.earlierSteps.size]? = some run.lastStep := by
  rw [steps, List.getElem?_append_right (by simp)]
  simp

theorem steps_showUnbounded (run : Run form) (ratios : Vector (Option α) form.numRows) :
    (run.showUnbounded ratios).steps = run.steps ++ [⟨run.tableau, .unbounded ratios, none⟩] := by
  rw [steps, showUnbounded, Array.toList_push]
  rfl

theorem steps_pivotAt (run : Run form) (choice : Pivot α form.numRows form.numColumns) :
    (run.pivotAt choice).2.steps = run.earlierSteps.toList ++
      [{ run.lastStep with pivot := some choice }, (run.pivotAt choice).2.lastStep] := by
  rw [steps, pivotAt, Array.toList_push, List.append_assoc]
  rfl

theorem keepsSteps_of_startsWith {run later : Run form} (kept : run.steps <+: later.steps) :
    run.KeepsSteps later := by
  intro i step found
  obtain ⟨more, appended⟩ := kept
  have inRange := (List.getElem?_eq_some_iff.1 found).1
  refine ⟨step, ?_, rfl, rfl, fun _ => rfl⟩
  rw [← appended, List.getElem?_append_left inRange, found]

theorem keepsSteps_pivotAt (run : Run form) (choice : Pivot α form.numRows form.numColumns) :
    run.KeepsSteps (run.pivotAt choice).2 := by
  intro i step found
  rw [steps_pivotAt]
  by_cases earlier : i < run.earlierSteps.toList.length
  · rw [steps, List.getElem?_append_left earlier] at found
    exact ⟨step, (List.getElem?_append_left earlier).trans found, rfl, rfl, fun _ => rfl⟩
  · -- the last step is marked with the choice
    have inRange := (List.getElem?_eq_some_iff.1 found).1
    rw [length_steps] at inRange
    rw [Array.length_toList] at earlier
    obtain rfl : i = run.earlierSteps.size := by omega
    rw [getElem?_steps_size] at found
    cases found
    refine ⟨{ run.lastStep with pivot := some choice }, ?_, rfl, rfl, fun notLast => ?_⟩
    · rw [List.getElem?_append_right (by simp)]
      simp
    · rw [length_steps] at notLast
      exact absurd notLast (lt_irrefl _)

/-- One step keeps the record. -/
theorem keepsSteps_step (run : Run form) : run.KeepsSteps run.step.2 := by
  have made := run.stepOf_step
  generalize run.step = result at made
  cases made with
  | idle status ended => exact keepsSteps_of_startsWith (List.prefix_refl _)
  | settled running stopped => exact keepsSteps_of_startsWith (List.prefix_refl _)
  | capped column running entered cap => exact keepsSteps_of_startsWith (List.prefix_refl _)
  | unbounded column running entered below stuck =>
    exact keepsSteps_of_startsWith ⟨_, (steps_showUnbounded run _).symm⟩
  | pivoted column row running entered below left => exact keepsSteps_pivotAt run _

/-! ### One step of a recorded run -/

namespace IsRecorded

variable {run : Run form}

theorem initial (solver : Solver α) (sense : Sense) (form : StandardForm α) :
    (initial solver sense form).IsRecorded where
  iterations_le := Nat.zero_le _
  length := rfl
  exchange k impossible := absurd impossible (Nat.not_lt_zero k)
  headers _ _ := rfl
  current := ⟨_, rfl, rfl, rfl⟩
  unbounded impossible := nomatch impossible

variable (recorded : run.IsRecorded)
include recorded

/-- A run that goes on has one step before each pivot, and stands at a step without a mark. -/
theorem of_running (running : run.status = none) :
    run.earlierSteps.size = run.iterations ∧ run.lastStep.pivot = none := by
  have length := recorded.length
  rw [running, if_neg nofun, length_steps] at length
  have size : run.earlierSteps.size = run.iterations := by omega
  obtain ⟨step, found, unmarked, _⟩ := recorded.current
  rw [← size, getElem?_steps_size] at found
  cases found
  exact ⟨size, unmarked⟩

/-- The pivots of the record are kept with its steps. -/
theorem exchange_of_keepsSteps {later : Run form} (kept : run.KeepsSteps later)
    (solver : later.solver = run.solver) {k : Nat} (pivoted : k < run.iterations) :
    ∃ step next pivot, later.steps[k]? = some step ∧ later.steps[k + 1]? = some next ∧
      step.Exchanges later.solver.tolerance form.names (k + 1) next pivot := by
  obtain ⟨step, next, pivot, here, there, exchanges⟩ := recorded.exchange k pivoted
  have inRange := (List.getElem?_eq_some_iff.1 there).1
  obtain ⟨_, foundHere, _, _, same⟩ := kept k step here
  obtain ⟨keptNext, foundThere, tableau, origin, _⟩ := kept (k + 1) next there
  obtain rfl := same inRange
  refine ⟨_, keptNext, pivot, foundHere, foundThere, ?_⟩
  rw [solver]
  exact { exchanges with
    tableau := tableau.trans exchanges.tableau
    origin := origin.trans exchanges.origin
    basis := by rw [tableau, exchanges.basis]
    headers := by rw [tableau, exchanges.headers] }

/-- A run that ends where it stands stays recorded. -/
theorem finish (running : run.status = none) {status : Status} (bounded : status ≠ .unbounded) :
    (run.finish status).2.IsRecorded where
  iterations_le := recorded.iterations_le
  length := by
    have length := recorded.length
    have ended : (run.finish status).2.status = some status := rfl
    rw [running, if_neg nofun] at length
    rw [ended, if_neg fun unbounded => bounded (Option.some.inj unbounded)]
    exact length
  exchange _ pivoted :=
    recorded.exchange_of_keepsSteps (keepsSteps_of_startsWith (List.prefix_refl _)) rfl pivoted
  headers _ _ := rfl
  current := recorded.current
  unbounded unbounded := absurd (Option.some.inj unbounded) bounded

/-- A run that ends unbounded repeats its tableau with ratios that are all absent. -/
theorem showUnbounded (running : run.status = none) {column : Fin form.numColumns}
    (stuck : run.leaving? column = none) :
    ((run.showUnbounded (run.ratiosOf column)).finish .unbounded).2.IsRecorded := by
  obtain ⟨size, unmarked⟩ := recorded.of_running running
  have steps : ((run.showUnbounded (run.ratiosOf column)).finish .unbounded).2.steps =
    run.steps ++ [⟨run.tableau, .unbounded (run.ratiosOf column), none⟩] :=
      steps_showUnbounded run _
  have length := run.length_steps
  have found := run.getElem?_steps_size
  rw [size] at length found
  have ended : ((run.showUnbounded (run.ratiosOf column)).finish .unbounded).2.status =
    some .unbounded := rfl
  have inRange : run.iterations < run.steps.length := by omega
  exact {
    iterations_le := recorded.iterations_le
    length := by
      rw [ended, if_pos rfl, steps, List.length_append, length, Nat.add_comm run.iterations]
      rfl
    exchange := fun _ pivoted => recorded.exchange_of_keepsSteps
      (keepsSteps_of_startsWith ⟨_, steps.symm⟩) rfl pivoted
    headers := fun _ _ => rfl
    current := by
      refine ⟨run.lastStep, ?_, unmarked, rfl⟩
      rw [steps]
      exact (List.getElem?_append_left inRange).trans found
    unbounded := fun _ => by
      refine ⟨run.ratiosOf column, ?_, fun row => PivotRule.none_of_leaving_eq_none stuck row⟩
      rw [steps]
      exact (List.getElem?_append_right length.le).trans (by rw [length, Nat.sub_self]; rfl) }

/-- A run that pivots records the tableau that the pivot makes of the last one. -/
theorem pivotAt (running : run.status = none) {column : Fin form.numColumns}
    {row : Fin form.numRows} (below : run.iterations < run.solver.maxIterations)
    (left : run.leaving? column = some row) :
    (run.pivotAt ⟨row, column, run.ratiosOf column⟩).2.IsRecorded := by
  obtain ⟨size, unmarked⟩ := recorded.of_running running
  have size' : run.earlierSteps.toList.length = run.iterations := size
  have steps := run.steps_pivotAt ⟨row, column, run.ratiosOf column⟩
  have status : (run.pivotAt ⟨row, column, run.ratiosOf column⟩).2.status = none := running
  exact {
    iterations_le := below
    length := by
      rw [status, if_neg nofun, steps, List.length_append, size']
      exact Nat.add_comm (run.iterations + 1) 1
    exchange := fun k pivoted => by
      rcases Nat.lt_succ_iff_lt_or_eq.1 pivoted with earlier | rfl
      · exact recorded.exchange_of_keepsSteps (run.keepsSteps_pivotAt _) rfl earlier
      · refine ⟨{ run.lastStep with pivot := some ⟨row, column, run.ratiosOf column⟩ },
          (run.pivotAt ⟨row, column, run.ratiosOf column⟩).2.lastStep,
          ⟨row, column, run.ratiosOf column⟩, ?_, ?_, ?_⟩
        · rw [steps, List.getElem?_append_right size'.le, size', Nat.sub_self]
          rfl
        · rw [steps, List.getElem?_append_right (by omega), size', Nat.add_sub_cancel_left]
          rfl
        · exact {
            marked := rfl
            ratios := rfl
            present := PivotRule.exists_ratio_of_leaving_eq_some left
            tableau := rfl
            origin := rfl
            basis := rfl
            headers := Tableau.rowHeaders_pivot _ _ _ _ _ }
    headers := fun _ _ => rfl
    current := by
      refine ⟨(run.pivotAt ⟨row, column, run.ratiosOf column⟩).2.lastStep, ?_, rfl, rfl⟩
      rw [steps]
      show (_ ++ _)[run.iterations + 1]? = _
      rw [List.getElem?_append_right (by omega), size', Nat.add_sub_cancel_left]
      rfl
    unbounded := fun unbounded => by
      rw [status] at unbounded
      cases unbounded }

/-- One step keeps the run recorded. -/
theorem step : run.step.2.IsRecorded := by
  have made := run.stepOf_step
  generalize run.step = result at made
  cases made with
  | idle status ended => exact recorded
  | settled running stopped =>
    refine recorded.finish running ?_
    split <;> exact nofun
  | capped column running entered cap => exact recorded.finish running nofun
  | unbounded column running entered below stuck => exact recorded.showUnbounded running stuck
  | pivoted column row running entered below left => exact recorded.pivotAt running below left

end IsRecorded

/-! ### Driving a run -/

/-- A call that drives a run: one step, or steps to the end. -/
inductive Call where
  | step
  | complete

/-- The run after a call. -/
def call (run : Run form) : Call → Run form
  | .step => run.step.2
  | .complete => run.complete

/-- The run after a sequence of calls. -/
def drive (run : Run form) (calls : List Call) : Run form := calls.foldl call run

/-- Steps are made until one of them finishes, however many that takes. -/
inductive LoopsTo : Nat → Run form → Status → Run form → Prop
  | finished {run last : Run form} {status : Status}
    (made : run.step = (.finished status, last)) : LoopsTo 1 run status last
  | pivoted {run next last : Run form} {entering leaving : Fin form.numColumns} {status : Status}
    {count : Nat} (made : run.step = (.pivoted entering leaving, next))
    (onward : LoopsTo count next status last) : LoopsTo (count + 1) run status last

/-- What a call does to a run: a step keeps the record, the steps to the end are few, and a run that
has finished stays as it is. -/
structure AnswersCalls (run : Run form) : Prop where
  keepsSteps : run.KeepsSteps run.step.2
  loopsTo : ∃ status, run.complete.status = some status ∧
    ∃ count ≤ run.solver.maxIterations - run.iterations + 1, LoopsTo count run status run.complete
  finished : ∀ status, run.status = some status →
    run.step = (.finished status, run) ∧ ∀ call, run.call call = run

/-- Whatever one step keeps, every call keeps. -/
theorem drive_induction (holds : Run form → Prop) (step : ∀ run, holds run → holds run.step.2)
    (calls : List Call) {run : Run form} (start : holds run) : holds (run.drive calls) := by
  induction calls generalizing run with
  | nil => exact start
  | cons first calls inductionHypothesis =>
    refine inductionHypothesis ?_
    cases first with
    | step => exact step run start
    | complete =>
      show holds (run.stepAtMost _)
      rw [stepAtMost_eq_afterSteps]
      exact afterSteps_induction holds step _ start

/-- A step finishes where it stops, or pivots below the cap and counts the pivot. -/
theorem finished_or_pivoted (run : Run form) :
    (∃ status last, run.step = (.finished status, last) ∧ last.status = some status) ∨
      ∃ entering leaving next, run.step = (.pivoted entering leaving, next) ∧
        run.iterations < run.solver.maxIterations ∧ next.solver = run.solver ∧
        next.iterations = run.iterations + 1 := by
  have made := run.stepOf_step
  generalize run.step = result at made ⊢
  cases made with
  | idle status ended => exact Or.inl ⟨status, run, rfl, ended⟩
  | settled running stopped => exact Or.inl ⟨_, _, rfl, rfl⟩
  | capped column running entered cap => exact Or.inl ⟨_, _, rfl, rfl⟩
  | unbounded column running entered below stuck => exact Or.inl ⟨_, _, rfl, rfl⟩
  | pivoted column row running entered below left =>
    exact Or.inr ⟨_, _, _, rfl, below, rfl, rfl⟩

theorem complete_of_finished {run last : Run form} {status : Status}
    (made : run.step = (.finished status, last)) : run.complete = last := by
  rw [complete, stepAtMost, made]

/-- After a pivot below the cap one call fewer is left, and the end is the same. -/
theorem complete_of_pivoted {run next : Run form} {entering leaving : Fin form.numColumns}
    (made : run.step = (.pivoted entering leaving, next))
    (below : run.iterations < run.solver.maxIterations) (solver : next.solver = run.solver)
    (counted : next.iterations = run.iterations + 1) : run.complete = next.complete := by
  have room : run.solver.maxIterations - run.iterations =
      next.solver.maxIterations - next.iterations + 1 := by
    rw [solver, counted]
    omega
  rw [complete, stepAtMost, made, room]
  rfl

theorem complete_of_ended {run : Run form} {status : Status} (ended : run.status = some status) :
    run.complete = run :=
  complete_of_finished (step_of_ended ended)

/-- Steps until one finishes are at most one more than the pivots that the cap still allows. -/
theorem exists_loopsTo (run : Run form) :
    ∃ status, run.complete.status = some status ∧
      ∃ count ≤ run.solver.maxIterations - run.iterations + 1,
        LoopsTo count run status run.complete := by
  induction room : run.solver.maxIterations - run.iterations generalizing run with
  | zero =>
    rcases run.finished_or_pivoted with ⟨status, last, made, ended⟩ | ⟨_, _, _, _, below, _⟩
    · rw [complete_of_finished made]
      exact ⟨status, ended, 1, le_rfl, .finished made⟩
    · omega
  | succ room inductionHypothesis =>
    rcases run.finished_or_pivoted with
      ⟨status, last, made, ended⟩ | ⟨_, _, next, made, below, solver, counted⟩
    · rw [complete_of_finished made]
      exact ⟨status, ended, 1, by omega, .finished made⟩
    · obtain ⟨status, ended, count, few, onward⟩ :=
        inductionHypothesis next (by rw [solver, counted]; omega)
      rw [complete_of_pivoted made below solver counted]
      exact ⟨status, ended, count + 1, by omega, .pivoted made onward⟩

theorem answersCalls (run : Run form) : run.AnswersCalls where
  keepsSteps := run.keepsSteps_step
  loopsTo := run.exists_loopsTo
  finished _ ended := by
    refine ⟨step_of_ended ended, fun call => ?_⟩
    cases call with
    | step => exact congrArg Prod.snd (step_of_ended ended)
    | complete => exact complete_of_ended ended

/-- One step does not change where a run ends. -/
theorem complete_step (run : Run form) : run.step.2.complete = run.complete := by
  rcases run.finished_or_pivoted with
    ⟨status, last, made, ended⟩ | ⟨_, _, next, made, below, solver, counted⟩
  · rw [complete_of_finished made, made, complete_of_ended ended]
  · rw [complete_of_pivoted made below solver counted, made]

end Run

/-- The trace of a run is a faithful record. Whatever the scalars compute, a valid problem is
started, and after any sequence of calls the steps of the run record its pivots, further calls
answer as they should, and once the run has finished its solution is the one that the solver
returns, however the calls were split. -/
theorem Solver.drive_isRecorded (solver : Solver α) (problem : Problem α) (valid : problem.Valid) :
    ∃ run : Run (.ofProblem problem valid),
      solver.start problem = .ok ⟨.ofProblem problem valid, run⟩ ∧
        ∀ calls, (run.drive calls).solver = solver ∧ (run.drive calls).IsRecorded ∧
          (run.drive calls).AnswersCalls ∧
          ((run.drive calls).status ≠ none →
            solver.solve problem = .ok (run.drive calls).solution) := by
  refine ⟨_, solver.start_eq valid, fun calls => ⟨?_, ?_, Run.answersCalls _, fun ended => ?_⟩⟩
  · exact Run.drive_induction (fun run => run.solver = solver)
      (fun run same => (Run.step_solver run).trans same) calls rfl
  · exact Run.drive_induction Run.IsRecorded (fun _ recorded => recorded.step) calls
      (.initial solver problem.sense _)
  · obtain ⟨status, ended⟩ := Option.ne_none_iff_exists'.1 ended
    have same := Run.drive_induction
      (fun run => run.complete = (Run.initial solver problem.sense _).complete)
      (fun run same => (Run.complete_step run).trans same) calls
      (rfl : (Run.initial solver problem.sense (.ofProblem problem valid)).complete = _)
    rw [Run.complete_of_ended ended] at same
    rw [same, solve, solver.start_eq valid]
    rfl

/-- The statement at a problem that needs artificial columns, driven one step and then to its
end. -/
theorem Solver.drive_isRecorded_mixedProblem :
    mixedProblem.Valid ∧ ∃ run : Run (.ofProblem mixedProblem mixedProblem_valid),
      ({} : Solver Rat).start mixedProblem = .ok ⟨.ofProblem mixedProblem mixedProblem_valid, run⟩ ∧
        (run.drive [.step, .complete, .step]).IsRecorded ∧
        (run.drive [.step, .complete, .step]).AnswersCalls ∧
        ({} : Solver Rat).solve mixedProblem =
          .ok (run.drive [.step, .complete, .step]).solution := by
  obtain ⟨run, started, driven⟩ :=
    drive_isRecorded ({} : Solver Rat) mixedProblem mixedProblem_valid
  obtain ⟨_, recorded, answers, solution⟩ := driven [.step, .complete, .step]
  have ended : (run.drive [.step, .complete, .step]).status ≠ none := by
    obtain ⟨status, ended, _⟩ := (run.drive [.step]).exists_loopsTo
    have last : run.drive [.step, .complete, .step] = (run.drive [.step]).complete.step.2 := rfl
    rw [last, Run.step_of_ended ended, ended]
    exact nofun
  exact ⟨mixedProblem_valid, run, started, recorded, answers, solution ended⟩

end LinearProgramming
