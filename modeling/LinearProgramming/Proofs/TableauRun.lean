/-
This file follows the tableau through a run without tolerance.

One step of a run does one of five things, listed once. From that list it follows that a step
keeps the invariant of the tableau, and by induction every state that can be reached has it: the
tableau stands for its basis, no right-hand side is negative, and once the run has ended the
tableau shows why.
-/

import Mathlib
import LinearProgramming.Proofs.Tableau
import LinearProgramming.Simplex

namespace LinearProgramming.Run

/-! ### What a step does -/

section Steps

variable {α : Type} [Scalar α] {form : StandardForm α}

/-- The column that enters on the current tableau. -/
def entering? (run : Run form) : Option (Fin form.numColumns) :=
  run.solver.rule.entering run.solver.tolerance run.tableau.objectiveRow

/-- The ratios of a column on the current tableau. -/
def ratiosOf (run : Run form) (column : Fin form.numColumns) : Vector (Option α) form.numRows :=
  run.tableau.ratios run.solver.tolerance column

/-- The row that leaves on the current tableau for a column. -/
def leaving? (run : Run form) (column : Fin form.numColumns) : Option (Fin form.numRows) :=
  run.solver.rule.leaving run.solver.tolerance run.tableau.basis (run.ratiosOf column)

/-- All that one call to `Run.step` can do. -/
inductive StepOf (run : Run form) : Progress form.numColumns × Run form → Prop
  | idle (status : Status) (ended : run.status = some status) :
    StepOf run (.finished status, run)
  | settled (running : run.status = none) (stopped : run.entering? = none) :
    StepOf run (run.finish (if run.hasPositiveArtificial then .infeasible else .optimal))
  | capped (column : Fin form.numColumns) (running : run.status = none)
    (entered : run.entering? = some column)
    (cap : run.solver.maxIterations ≤ run.iterations) : StepOf run (run.finish .notConverged)
  | unbounded (column : Fin form.numColumns) (running : run.status = none)
    (entered : run.entering? = some column)
    (below : run.iterations < run.solver.maxIterations)
    (stuck : run.leaving? column = none) :
    StepOf run ((run.showUnbounded (run.ratiosOf column)).finish .unbounded)
  | pivoted (column : Fin form.numColumns) (row : Fin form.numRows) (running : run.status = none)
    (entered : run.entering? = some column)
    (below : run.iterations < run.solver.maxIterations)
    (left : run.leaving? column = some row) :
    StepOf run (run.pivotAt ⟨row, column, run.ratiosOf column⟩)

theorem stepOf_step (run : Run form) : StepOf run run.step := by
  unfold step
  split
  · rename_i status ended
    exact .idle status ended
  · rename_i running
    split
    · rename_i stopped
      exact .settled running stopped
    · rename_i column entered
      split
      · rename_i cap
        exact .capped column running entered cap
      · rename_i below
        dsimp only
        split
        · rename_i stuck
          exact .unbounded column running entered (Nat.lt_of_not_le below) stuck
        · rename_i row left
          exact .pivoted column row running entered (Nat.lt_of_not_le below) left

/-- What a step saw settles what it does. -/
theorem StepOf.step_eq {run : Run form} {result : Progress form.numColumns × Run form}
    (made : StepOf run result) : run.step = result := by
  unfold step
  cases made with
  | idle status ended => rw [ended]
  | settled running stopped =>
    unfold entering? at stopped
    rw [running, stopped]
  | capped column running entered cap =>
    unfold entering? at entered
    rw [running, entered]
    exact if_pos cap
  | unbounded column running entered below stuck =>
    unfold entering? at entered
    unfold leaving? ratiosOf at stuck
    rw [running, entered]
    refine (if_neg (Nat.not_le_of_lt below)).trans ?_
    dsimp only
    rw [stuck]
    rfl
  | pivoted column row running entered below left =>
    unfold entering? at entered
    unfold leaving? ratiosOf at left
    rw [running, entered]
    refine (if_neg (Nat.not_le_of_lt below)).trans ?_
    dsimp only
    rw [left]
    rfl

/-- The run after a number of further steps. -/
def afterSteps : Nat → Run form → Run form
  | 0, run => run
  | count + 1, run => afterSteps count run.step.2

theorem step_of_ended {run : Run form} {status : Status} (ended : run.status = some status) :
    run.step = (.finished status, run) :=
  (StepOf.idle status ended).step_eq

/-- A run that has ended stays as it is. -/
theorem afterSteps_of_ended {run : Run form} {status : Status} (ended : run.status = some status)
    (count : Nat) : afterSteps count run = run := by
  induction count with
  | zero => rfl
  | succ count inductionHypothesis =>
    rw [afterSteps, step_of_ended ended, inductionHypothesis]

/-- Whatever one step keeps holds after any number of steps. -/
theorem afterSteps_induction (holds : Run form → Prop)
    (step : ∀ run, holds run → holds run.step.2) (count : Nat) {run : Run form}
    (start : holds run) : holds (afterSteps count run) := by
  induction count generalizing run with
  | zero => exact start
  | succ count inductionHypothesis => exact inductionHypothesis (step run start)

/-- A run to its end is a run of a number of steps: once it has ended, further steps change
nothing. -/
theorem stepAtMost_eq_afterSteps (count : Nat) (run : Run form) :
    run.stepAtMost count = run.afterSteps count := by
  induction count generalizing run with
  | zero => rfl
  | succ count inductionHypothesis =>
    rw [stepAtMost, afterSteps]
    have made := run.stepOf_step
    generalize run.step = result at made ⊢
    cases made with
    | idle status ended => exact (afterSteps_of_ended ended count).symm
    | settled running stopped => exact (afterSteps_of_ended rfl count).symm
    | capped column running entered cap => exact (afterSteps_of_ended rfl count).symm
    | unbounded column running entered below stuck =>
      exact (afterSteps_of_ended rfl count).symm
    | pivoted column row running entered below left => exact inductionHypothesis _

theorem step_solver (run : Run form) : run.step.2.solver = run.solver := by
  have made := run.stepOf_step
  generalize run.step = result at made
  cases made <;> rfl

theorem afterSteps_solver (run : Run form) (count : Nat) :
    (run.afterSteps count).solver = run.solver :=
  afterSteps_induction (fun later => later.solver = run.solver)
    (fun later same => (step_solver later).trans same) count rfl

end Steps

/-! ### The invariant of the tableau -/

variable {form : StandardForm Rat}

/-- What the tableau of a run that has ended shows about its end. -/
def ShowsEnd (run : Run form) : Option Status → Prop
  | none | some .notConverged => True
  | some .optimal =>
    (∀ j, 0 ≤ run.tableau.objectiveEntry j) ∧ run.hasPositiveArtificial = false
  | some .infeasible =>
    (∀ j, 0 ≤ run.tableau.objectiveEntry j) ∧ run.hasPositiveArtificial = true
  | some .unbounded =>
    ∃ column, run.tableau.objectiveEntry column < 0 ∧ ∀ row, run.tableau.entry row column ≤ 0

/-- The invariant of a run without tolerance. -/
structure Exact (run : Run form) : Prop where
  tolerance : run.solver.tolerance = 0
  represents : ∃ inverse, run.tableau.Represents form inverse
  rhs_nonneg : ∀ row, 0 ≤ run.tableau.rhs row
  showsEnd : run.ShowsEnd run.status

theorem initial_exact (canonical : form.Canonical) {solver : Solver Rat}
    (exact : solver.tolerance = 0) (sense : Sense) : (initial solver sense form).Exact where
  tolerance := exact
  represents := ⟨1, Tableau.initial_represents canonical⟩
  rhs_nonneg := Tableau.initial_rhs_nonneg canonical
  showsEnd := trivial

namespace Exact

variable {run : Run form} (exact : run.Exact)

include exact

theorem nonneg_of_entering_eq_none (stopped : run.entering? = none) (j : Fin form.numColumns) :
    0 ≤ run.tableau.objectiveEntry j := by
  unfold entering? at stopped
  rw [exact.tolerance] at stopped
  have nonneg := PivotRule.nonneg_of_entering_eq_none stopped j
  rwa [Tableau.objectiveRow, get_vectorOfFn] at nonneg

theorem neg_of_entering_eq_some {column : Fin form.numColumns}
    (entered : run.entering? = some column) : run.tableau.objectiveEntry column < 0 := by
  unfold entering? at entered
  rw [exact.tolerance] at entered
  have negative := PivotRule.neg_of_entering_eq_some entered
  rwa [Tableau.objectiveRow, get_vectorOfFn] at negative

theorem entry_nonpos_of_leaving_eq_none {column : Fin form.numColumns}
    (stuck : run.leaving? column = none) (row : Fin form.numRows) :
    run.tableau.entry row column ≤ 0 := by
  unfold leaving? ratiosOf at stuck
  rw [exact.tolerance] at stuck
  have absent := PivotRule.none_of_leaving_eq_none stuck row
  rw [Tableau.get_ratios] at absent
  by_contra positive
  rw [if_pos (not_le.1 positive)] at absent
  cases absent

/-- The pivot that a step makes is on a positive entry with the least ratio. -/
theorem least_of_leaving_eq_some {column : Fin form.numColumns} {row : Fin form.numRows}
    (left : run.leaving? column = some row) :
    ∃ least, (run.tableau.ratios 0 column).get row = some least ∧
      ∀ other ratio, (run.tableau.ratios 0 column).get other = some ratio → least ≤ ratio := by
  unfold leaving? ratiosOf at left
  rw [exact.tolerance] at left
  exact PivotRule.least_of_leaving_eq_some left

theorem tableau_pivotAt (choice : Pivot Rat form.numRows form.numColumns) :
    (run.pivotAt choice).2.tableau = run.tableau.pivot 0 choice.row choice.column :=
  congrArg (fun tolerance => run.tableau.pivot tolerance choice.row choice.column)
    exact.tolerance

theorem entry_pos_of_left {column : Fin form.numColumns} {row : Fin form.numRows}
    (left : run.leaving? column = some row) : 0 < run.tableau.entry row column := by
  obtain ⟨least, present, _⟩ := exact.least_of_leaving_eq_some left
  exact (Tableau.ratio_of_get_ratios present).1

/-- A pivot keeps the invariant. -/
theorem pivotAt {column : Fin form.numColumns} {row : Fin form.numRows}
    (running : run.status = none) (left : run.leaving? column = some row) :
    (run.pivotAt ⟨row, column, run.ratiosOf column⟩).2.Exact := by
  obtain ⟨least, present, smallest⟩ := exact.least_of_leaving_eq_some left
  obtain ⟨inverse, represents⟩ := exact.represents
  have tableau := exact.tableau_pivotAt ⟨row, column, run.ratiosOf column⟩
  refine ⟨exact.tolerance,
    ⟨_, tableau ▸ represents.pivot (exact.entry_pos_of_left left).ne'⟩, ?_, ?_⟩
  · rw [tableau]
    exact represents.rhs_pivot_nonneg exact.rhs_nonneg present smallest
  · have stillRunning : (run.pivotAt ⟨row, column, run.ratiosOf column⟩).2.status = none :=
      running
    rw [stillRunning]
    trivial

/-- One step keeps the invariant. -/
theorem step : run.step.2.Exact := by
  have made := run.stepOf_step
  generalize run.step = result at made
  cases made with
  | idle status ended => exact exact
  | settled running stopped =>
    refine ⟨exact.tolerance, exact.represents, exact.rhs_nonneg, ?_⟩
    have nonneg := exact.nonneg_of_entering_eq_none stopped
    cases positive : run.hasPositiveArtificial with
    | true => exact ⟨nonneg, positive⟩
    | false => exact ⟨nonneg, positive⟩
  | capped column running entered cap =>
    exact ⟨exact.tolerance, exact.represents, exact.rhs_nonneg, trivial⟩
  | unbounded column running entered below stuck =>
    exact ⟨exact.tolerance, exact.represents, exact.rhs_nonneg, column,
      exact.neg_of_entering_eq_some entered, exact.entry_nonpos_of_leaving_eq_none stuck⟩
  | pivoted column row running entered below left => exact exact.pivotAt running left

/-- Every state that can be reached keeps the invariant. -/
theorem afterSteps (count : Nat) : (run.afterSteps count).Exact :=
  afterSteps_induction Exact (fun _ exact => exact.step) count exact

end Exact

end LinearProgramming.Run

namespace LinearProgramming

/-! ### The reachable tableaux -/

/-- A tableau of a standard form is that of its basis: its basic columns are distinct and have an
inverse, its constraint rows are the inverse times the equations, its objective row is what the
basic costs make of these rows less the costs, and no right-hand side is negative. -/
structure Tableau.BelongsTo (form : StandardForm Rat)
    (tableau : Tableau Rat form.numRows form.numColumns) : Prop where
  basis_injective : Function.Injective tableau.basis.get
  basis_invertible : IsUnit (form.basisOf tableau.basis)
  rows : ∀ row j, tableau.cells.get row.succ j =
    .ofScalar (((form.basisOf tableau.basis)⁻¹ * form.augmented) row j)
  objectiveRow : ∀ j, tableau.cells.get 0 j =
    ∑ row, ((form.basisOf tableau.basis)⁻¹ * form.augmented) row j •
      form.costs.get (tableau.basis.get row) - form.augmentedCosts j
  entry_basis : ∀ row position,
    tableau.entry row (tableau.basis.get position) = if row = position then 1 else 0
  objectiveEntry_basis : ∀ position, tableau.objectiveEntry (tableau.basis.get position) = 0
  penalty : ∀ (row : Fin form.numRows) j, (tableau.cells.get row.succ j).penalty = 0
  entry_initialBasis : ∀ row position,
    tableau.entry row (form.initialBasis.get position) =
      (form.basisOf tableau.basis)⁻¹ row position
  rhs_nonneg : ∀ row, 0 ≤ tableau.rhs row

theorem Run.Exact.belongsTo {form : StandardForm Rat} (canonical : form.Canonical)
    {run : Run form} (exact : run.Exact) : run.tableau.BelongsTo form := by
  obtain ⟨inverse, represents⟩ := exact.represents
  have same := represents.basisOf_inverse
  exact {
    basis_injective := represents.basis_injective
    basis_invertible := represents.basisOf_isUnit
    rows := by
      rw [same]
      exact represents.rows
    objectiveRow := by
      rw [same]
      exact represents.objectiveRow
    entry_basis := represents.entry_basis
    objectiveEntry_basis := represents.objectiveEntry_basis
    penalty := fun row j => by rw [represents.rows, BigM.penalty_ofScalar]
    entry_initialBasis := by
      rw [same]
      exact represents.entry_initialBasis canonical
    rhs_nonneg := exact.rhs_nonneg }

theorem Solver.start_eq {α : Type} [Scalar α] (solver : Solver α) {problem : Problem α}
    (valid : problem.Valid) :
    solver.start problem = .ok ⟨.ofProblem problem valid,
      .initial solver problem.sense (.ofProblem problem valid)⟩ := by
  unfold start
  rw [problem.validate_of_valid valid]
  rfl

/-- Solving a valid problem takes one step for each pivot that the cap allows, and one to stop. -/
theorem Solver.solve_eq_afterSteps {α : Type} [Scalar α] (solver : Solver α)
    {problem : Problem α} (valid : problem.Valid) :
    solver.solve problem = .ok ((Run.initial solver problem.sense
      (.ofProblem problem valid)).afterSteps (solver.maxIterations + 1)).solution := by
  unfold solve
  rw [solver.start_eq valid, ← Run.stepAtMost_eq_afterSteps]
  rfl

/-- Without tolerance, a valid problem is started, and after any number of steps the tableau is
that of its basis. -/
theorem reachable_tableau_belongsTo (solver : Solver Rat) (exact : solver.tolerance = 0)
    (problem : Problem Rat) (valid : problem.Valid) :
    ∃ run : Run (.ofProblem problem valid),
      solver.start problem = .ok ⟨.ofProblem problem valid, run⟩ ∧
        ∀ count, (run.afterSteps count).tableau.BelongsTo (.ofProblem problem valid) := by
  have canonical := StandardForm.canonical_ofProblem valid
  refine ⟨_, solver.start_eq valid, fun count => ?_⟩
  exact ((Run.initial_exact canonical exact problem.sense).afterSteps count).belongsTo canonical

/-- The statement at a problem that needs artificial columns and negates a row. -/
theorem reachable_tableau_mixedProblem :
    ({ tolerance := 0, rule := .bland } : Solver Rat).tolerance = 0 ∧
      ∃ run : Run (.ofProblem mixedProblem mixedProblem_valid),
        ({ tolerance := 0, rule := .bland } : Solver Rat).start mixedProblem =
            .ok ⟨.ofProblem mixedProblem mixedProblem_valid, run⟩ ∧
          ∀ count, (run.afterSteps count).tableau.BelongsTo
            (.ofProblem mixedProblem mixedProblem_valid) :=
  ⟨rfl, reachable_tableau_belongsTo _ rfl mixedProblem mixedProblem_valid⟩

end LinearProgramming
