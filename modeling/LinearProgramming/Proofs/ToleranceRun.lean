/-
This file follows a run with a tolerance as long as the tolerance decides nothing.

With a tolerance a pivot leaves a row as it is when its entry in the entering column is small,
and the tie-break may take a row whose ratio is not the least. A pivot where neither happens
changes the constraint rows as a pivot without tolerance does. So the constraint rows stay those
of a tableau that stands for its basis, with no negative right-hand side, while the objective row
may go its own way. At an optimal end the artificial levels are within the tolerance, and so every
constraint passes its check.
-/

import Mathlib
import LinearProgramming.Proofs.Margin
import LinearProgramming.Proofs.Optimality

namespace LinearProgramming

/-! ### The choice of the leaving row -/

namespace PivotRule

variable {m n : Nat} {rule : PivotRule} {tolerance : Rat}

/-- A row is held with the ratio that it has. -/
def HoldsRatio (ratios : Vector (Option Rat) m) (found : Option (Fin m × Rat)) : Prop :=
  ∀ held ∈ found, ratios.get held.1 = some held.2

theorem HoldsRatio.scan {ratios : Vector (Option Rat) m} {found : Option (Fin m × Rat)}
    (holds : HoldsRatio ratios found) {row : Fin m} {ratio : Rat}
    (present : ratios.get row = some ratio) (better : Bool) :
    HoldsRatio ratios (if better then some (row, ratio) else found) := by
  split
  · rintro held ⟨rfl⟩
    exact present
  · exact holds

/-- Ratios that are near to each other are equal. -/
def Apart (tolerance : Rat) (ratios : Vector (Option Rat) m) : Prop :=
  ∀ first second ratio other, ratios.get first = some ratio → ratios.get second = some other →
    |ratio - other| ≤ tolerance → ratio = other

/-- The steepest rule prefers a row as it does without tolerance, and so does the cautious rule
when a ratio that is near to the least is equal to it. -/
theorem prefers_eq (nonneg : 0 ≤ tolerance) (basis : Vector (Fin n) m) (row : Fin m) (ratio : Rat)
    (found : Option (Fin m × Rat))
    (apart : rule = .bland → ∀ held ∈ found, |ratio - held.2| ≤ tolerance → ratio = held.2) :
    rule.prefers tolerance basis row ratio found = rule.prefers 0 basis row ratio found := by
  cases found with
  | none => rfl
  | some found =>
    obtain ⟨held, least⟩ := found
    unfold prefers
    by_cases smaller : ratio < least
    · cases rule with
      | dantzig => simp [smaller]
      | bland =>
        have far : ratio < least - tolerance := by
          by_contra near
          refine smaller.ne (apart rfl (held, least) rfl ?_)
          rw [abs_of_neg (sub_neg.2 smaller)]
          linarith
        simp [smaller, far]
    · have notFar : ¬ ratio < least - tolerance := fun less =>
        smaller (less.trans_le (sub_le_self least nonneg))
      cases rule with
      | dantzig => simp [smaller, notFar]
      | bland =>
        have near : |ratio - least| ≤ tolerance ↔ ratio = least :=
          ⟨apart rfl (held, least) rfl, fun same => by rwa [same, sub_self, abs_zero]⟩
        simp [smaller, notFar, Scalar.abs_eq, near, sub_eq_zero]

/-- The row that leaves under the steepest rule is the one that leaves without tolerance, and so
it is under the cautious rule when the ratios are apart. -/
theorem leaving_eq (nonneg : 0 ≤ tolerance) (basis : Vector (Fin n) m)
    {ratios : Vector (Option Rat) m} (apart : rule = .bland → Apart tolerance ratios) :
    rule.leaving tolerance basis ratios = rule.leaving 0 basis ratios := by
  refine congrArg (Option.map Prod.fst) (foldl_congr_of_invariant (HoldsRatio ratios)
    (fun found row holds => ?_) (fun found row holds => ?_) _
    (fun held impossible => nomatch impossible))
  · cases present : ratios.get row with
    | none => rfl
    | some ratio =>
      exact congrArg (if · = true then some (row, ratio) else found)
        (prefers_eq nonneg basis row ratio found fun cautious held member =>
          apart cautious row held.1 ratio held.2 present (holds held member))
  · cases present : ratios.get row with
    | none => exact holds
    | some ratio => exact holds.scan present _

end PivotRule

/-! ### Tableaux with the same constraint rows -/

namespace Tableau

section Comparing

variable {m n : Nat} {left right : Tableau Rat m n}

/-- Two tableaux have the same basis and agree in every constraint row. -/
structure SameRows (left right : Tableau Rat m n) : Prop where
  basis : left.basis = right.basis
  rows : ∀ (row : Fin m) j, left.cells.get row.succ j = right.cells.get row.succ j

variable (same : SameRows left right)

include same

theorem SameRows.entry (row : Fin m) (column : Fin n) :
    left.entry row column = right.entry row column :=
  congrArg BigM.value (same.rows row _)

theorem SameRows.rhs (row : Fin m) : left.rhs row = right.rhs row :=
  congrArg BigM.value (same.rows row _)

theorem SameRows.levelOf : left.levelOf = right.levelOf := by
  funext column
  unfold Tableau.levelOf valueOf basicRow?
  rw [same.basis]
  exact congrArg (fun levels => Option.getD (Option.map levels _) 0) (funext same.rhs)

theorem SameRows.pivotRow (row : Fin m) (column : Fin n) :
    left.pivotRow row column = right.pivotRow row column := by
  unfold Tableau.pivotRow
  simp only [same.rows, same.entry]

end Comparing

/-- No entry of a column is small without being zero. -/
def IsClear {m n : Nat} (tolerance : Rat) (tableau : Tableau Rat m n) (column : Fin n) : Prop :=
  ∀ row, |tableau.entry row column| ≤ tolerance → tableau.entry row column = 0

instance {m n : Nat} (tolerance : Rat) (tableau : Tableau Rat m n) (column : Fin n) :
    Decidable (tableau.IsClear tolerance column) :=
  inferInstanceAs (Decidable (∀ row, |tableau.entry row column| ≤ tolerance →
    tableau.entry row column = 0))

/-- A number without penalty counts as zero when its value is small. -/
theorem isZeroWithin_ofScalar_iff {tolerance : Rat} (nonneg : 0 ≤ tolerance) (value : Rat) :
    (BigM.ofScalar value).isZeroWithin tolerance = true ↔ |value| ≤ tolerance := by
  unfold BigM.isZeroWithin
  rw [Bool.and_eq_true, decide_eq_true_iff, decide_eq_true_iff, Scalar.abs_eq, Scalar.abs_eq]
  exact and_iff_right ((abs_nonpos_iff.2 rfl).trans nonneg)

variable {form : StandardForm Rat}
  {inverse : Matrix (Fin form.numRows) (Fin form.numRows) Rat}
  {ideal tableau : Tableau Rat form.numRows form.numColumns} {tolerance : Rat}
  {row : Fin form.numRows} {column : Fin form.numColumns}

/-- On a clear column every ratio is looked at. -/
theorem IsClear.ratios_eq (clear : tableau.IsClear tolerance column) (nonneg : 0 ≤ tolerance) :
    tableau.ratios tolerance column = tableau.ratios 0 column := by
  refine congrArg Vector.ofFn (funext fun row => if_congr ?_ rfl rfl)
  refine ⟨fun above => nonneg.trans_lt above, fun positive => not_le.1 fun small => ?_⟩
  exact positive.ne' (clear row ((abs_of_pos positive).trans_le small))

/-- A pivot on a clear column changes the constraint rows as a pivot without tolerance does. -/
theorem SameRows.pivot (same : SameRows ideal tableau) (represents : Represents form inverse ideal)
    (nonneg : 0 ≤ tolerance) (clear : tableau.IsClear tolerance column) :
    SameRows (ideal.pivot 0 row column) (tableau.pivot tolerance row column) where
  basis := congrArg (replaceEntry · row column) same.basis
  rows i j := by
    have factor : tableau.cells.get i.succ column.castSucc = .ofScalar (tableau.entry i column) := by
      rw [← same.entry, ← same.rows, represents.rows, Tableau.entry, represents.rows,
        BigM.value_ofScalar]
    -- the two pivots skip the same rows
    have skipped : (tableau.cells.get i.succ column.castSucc).isZeroWithin tolerance =
        (tableau.cells.get i.succ column.castSucc).isZeroWithin 0 := by
      rw [factor, Bool.eq_iff_iff, isZeroWithin_ofScalar_iff nonneg,
        isZeroWithin_ofScalar_iff le_rfl]
      exact ⟨fun small => (abs_nonpos_iff.2 (clear i small)), fun zero => zero.trans nonneg⟩
    refine (DenseMatrix.get_ofFn _ _ _).trans (Eq.trans ?_ (DenseMatrix.get_ofFn _ _ _).symm)
    simp only [same.rows, same.pivotRow, skipped]

/-- The constraint rows are those of a tableau that stands for its basis, with no negative
right-hand side. -/
def HasExactRows (form : StandardForm Rat) (tableau : Tableau Rat form.numRows form.numColumns) :
    Prop :=
  ∃ ideal inverse, Represents form inverse ideal ∧ (∀ row, 0 ≤ ideal.rhs row) ∧
    SameRows ideal tableau

theorem initial_hasExactRows (canonical : form.Canonical) : (initial form).HasExactRows form :=
  ⟨initial form, 1, initial_represents canonical, initial_rhs_nonneg canonical, rfl,
    fun _ _ => rfl⟩

theorem HasExactRows.basis_injective (exact : tableau.HasExactRows form) :
    Function.Injective tableau.basis.get := by
  obtain ⟨ideal, inverse, represents, _, same⟩ := exact
  exact same.basis ▸ represents.basis_injective

/-- A pivot on a clear column, in a row with the least ratio, keeps the constraint rows exact. -/
theorem HasExactRows.pivot (exact : tableau.HasExactRows form) (nonneg : 0 ≤ tolerance)
    (clear : tableau.IsClear tolerance column) {least : Rat}
    (present : (tableau.ratios tolerance column).get row = some least)
    (below : ∀ other ratio, (tableau.ratios tolerance column).get other = some ratio →
      least ≤ ratio) :
    (tableau.pivot tolerance row column).HasExactRows form := by
  obtain ⟨ideal, inverse, represents, idealNonneg, same⟩ := exact
  have ratios : tableau.ratios tolerance column = ideal.ratios 0 column := by
    rw [clear.ratios_eq nonneg]
    unfold Tableau.ratios
    simp only [same.entry, same.rhs]
  rw [ratios] at present below
  have positive := (ratio_of_get_ratios present).1
  exact ⟨_, _, represents.pivot positive.ne',
    represents.rhs_pivot_nonneg idealNonneg present below, same.pivot represents nonneg clear⟩

end Tableau

/-! ### Solutions with small artificial levels -/

/-- An equation with a small artificial level is the constraint up to that level. -/
theorem Problem.holdsWithin_of_equation {problem : Problem Rat} {i : Fin problem.numRows}
    {level : Column problem.numVars problem.numRows → Rat} {left right margin : Rat}
    (equation : left + problem.closing level i = right) (nonneg : ∀ column, 0 ≤ level column)
    (small : level (.artificial i) ≤ margin) :
    (problem.rowRelation i).HoldsWithin margin left right := by
  have slack := nonneg (.slack i)
  have surplus := nonneg (.surplus i)
  have artificial := nonneg (.artificial i)
  unfold closing at equation
  cases relation : problem.rowRelation i with
  | atMost =>
    simp only [relation] at equation
    show left ≤ right + margin
    linarith
  | atLeast =>
    simp only [relation] at equation
    show right - margin ≤ left
    linarith
  | equal =>
    simp only [relation] at equation
    show |left - right| ≤ margin
    rw [← equation, sub_add_cancel_left, abs_neg, abs_of_nonneg artificial]
    exact small

/-- The decision variables of a solution with small artificial levels miss every constraint by no
more than these levels. -/
theorem StandardForm.holdsWithin_pointOf {problem : Problem Rat} (valid : problem.Valid)
    {levels : Fin (ofProblem problem valid).numColumns → Rat} {margin : Rat}
    (solves : (ofProblem problem valid).Solves levels) (marginNonneg : 0 ≤ margin)
    (small : ∀ j, (ofProblem problem valid).isArtificial j = true → levels j ≤ margin)
    (i : Fin problem.numRows) :
    (problem.row i).relation.HoldsWithin margin
      ((problem.row i).lhs ((ofProblem problem valid).pointOf levels)) (problem.row i).rhs := by
  rw [← problem.holdsWithin_rowRelation_iff]
  exact Problem.holdsWithin_of_equation (equation_pointOf valid solves i)
    (byColumn_nonneg valid solves.nonneg)
    (byColumn_artificial_of valid (· ≤ margin) marginNonneg small i)

/-! ### Runs in which the tolerance decides nothing -/

/-- The pivot of a step, if there is one, is on a clear column. -/
def Step.IsClear {m n : Nat} (tolerance : Rat) (step : Step Rat m n) : Prop :=
  ∀ choice ∈ step.pivot, step.tableau.IsClear tolerance choice.column

instance {m n : Nat} (tolerance : Rat) (step : Step Rat m n) :
    Decidable (step.IsClear tolerance) :=
  inferInstanceAs (Decidable (∀ choice ∈ step.pivot,
    step.tableau.IsClear tolerance choice.column))

/-- The pivot of a step, if there is one, is in a row whose ratio is not above any other. -/
def Step.LeavesAtLeast {m n : Nat} (step : Step Rat m n) : Prop :=
  ∀ choice ∈ step.pivot, ∀ least ∈ choice.ratios.get choice.row,
    ∀ row, ∀ ratio ∈ choice.ratios.get row, least ≤ ratio

instance {m n : Nat} (step : Step Rat m n) : Decidable step.LeavesAtLeast :=
  inferInstanceAs (Decidable (∀ choice ∈ step.pivot, ∀ least ∈ choice.ratios.get choice.row,
    ∀ row, ∀ ratio ∈ choice.ratios.get row, least ≤ ratio))

/-- The tolerance has decided nothing in these steps: every pivot was on a clear column, and the
cautious rule took a row with the least ratio. -/
structure Solver.Undisturbed (solver : Solver Rat) {m n : Nat} (steps : List (Step Rat m n)) :
    Prop where
  clear : ∀ step ∈ steps, step.IsClear solver.tolerance
  least : solver.rule = .bland → ∀ step ∈ steps, step.LeavesAtLeast

instance {solver : Solver Rat} {m n : Nat} (steps : List (Step Rat m n)) :
    Decidable (solver.Undisturbed steps) :=
  decidable_of_iff ((∀ step ∈ steps, step.IsClear solver.tolerance) ∧
      (solver.rule = .bland → ∀ step ∈ steps, step.LeavesAtLeast))
    ⟨fun ⟨clear, least⟩ => ⟨clear, least⟩,
      fun undisturbed => ⟨undisturbed.clear, undisturbed.least⟩⟩

theorem Solver.undisturbed_snoc_iff {solver : Solver Rat} {m n : Nat} {steps : List (Step Rat m n)}
    {step : Step Rat m n} :
    solver.Undisturbed (steps ++ [step]) ↔ solver.Undisturbed steps ∧
      step.IsClear solver.tolerance ∧ (solver.rule = .bland → step.LeavesAtLeast) := by
  constructor
  · rintro ⟨clear, least⟩
    have last : step ∈ steps ++ [step] := List.mem_append_right _ (List.mem_singleton_self step)
    refine ⟨⟨fun other member => ?_, fun rule other member => ?_⟩, clear step last,
      fun rule => least rule step last⟩
    · exact clear other (List.mem_append_left _ member)
    · exact least rule other (List.mem_append_left _ member)
  · rintro ⟨earlier, clear, least⟩
    refine ⟨fun other member => ?_, fun rule other member => ?_⟩
    · rcases List.mem_append.1 member with before | last
      · exact earlier.clear other before
      · exact List.mem_singleton.1 last ▸ clear
    · rcases List.mem_append.1 member with before | last
      · exact earlier.least rule other before
      · exact List.mem_singleton.1 last ▸ least rule

namespace Run

variable {form : StandardForm Rat} {run : Run form}

/-- What a run keeps where the tolerance decides nothing: the constraint rows are exact, and an
optimal end leaves no artificial level above the tolerance. -/
structure Tracked (run : Run form) : Prop where
  rows : run.tableau.HasExactRows form
  settled : run.status = some .optimal → run.hasPositiveArtificial = false

/-- The row that leaves has the least ratio: the steepest rule sees to it, and for the cautious
rule the recorded pivot says so. -/
theorem least_of_undisturbed (nonneg : 0 ≤ run.solver.tolerance) {column : Fin form.numColumns}
    {row : Fin form.numRows} (left : run.leaving? column = some row)
    (least : run.solver.rule = .bland →
      Step.LeavesAtLeast { run.lastStep with pivot := some ⟨row, column, run.ratiosOf column⟩ }) :
    ∃ ratio, (run.ratiosOf column).get row = some ratio ∧
      ∀ other otherRatio, (run.ratiosOf column).get other = some otherRatio →
        ratio ≤ otherRatio := by
  unfold leaving? at left
  cases rule : run.solver.rule with
  | dantzig =>
    rw [rule, PivotRule.leaving_eq nonneg _ PivotRule.noConfusion] at left
    exact PivotRule.least_of_leaving_eq_some left
  | bland =>
    obtain ⟨ratio, present⟩ := PivotRule.exists_ratio_of_leaving_eq_some left
    exact ⟨ratio, present, fun other otherRatio => least rule _ rfl ratio present other otherRatio⟩

/-- One step keeps what is tracked, as long as the tolerance decides nothing in it. -/
theorem Tracked.step (nonneg : 0 ≤ run.solver.tolerance)
    (tracked : run.solver.Undisturbed run.earlierSteps.toList → run.Tracked)
    (undisturbed : run.step.2.solver.Undisturbed run.step.2.earlierSteps.toList) :
    run.step.2.Tracked := by
  have made := run.stepOf_step
  generalize run.step = result at made undisturbed ⊢
  cases made with
  | idle status ended => exact tracked undisturbed
  | settled running stopped =>
    refine ⟨(tracked undisturbed).rows, fun optimal => ?_⟩
    cases positive : run.hasPositiveArtificial with
    | false => exact positive
    | true =>
      rw [positive] at optimal
      cases optimal
  | capped column running entered cap =>
    exact ⟨(tracked undisturbed).rows, fun impossible => nomatch impossible⟩
  | unbounded column running entered below stuck =>
    change run.solver.Undisturbed (run.earlierSteps.push _).toList at undisturbed
    rw [Array.toList_push, Solver.undisturbed_snoc_iff] at undisturbed
    obtain ⟨earlier, _⟩ := undisturbed
    exact ⟨(tracked earlier).rows, fun impossible => nomatch impossible⟩
  | pivoted column row running entered below left =>
    change run.solver.Undisturbed (run.earlierSteps.push _).toList at undisturbed
    rw [Array.toList_push, Solver.undisturbed_snoc_iff] at undisturbed
    obtain ⟨earlier, clear, leaves⟩ := undisturbed
    obtain ⟨ratio, present, smallest⟩ := least_of_undisturbed nonneg left leaves
    refine ⟨(tracked earlier).rows.pivot nonneg (clear _ rfl) present smallest, fun ended => ?_⟩
    exact nomatch running.symm.trans ended

/-- After any number of steps a run is tracked, as long as the tolerance decides nothing. -/
theorem tracked_afterSteps (nonneg : 0 ≤ run.solver.tolerance)
    (tracked : run.solver.Undisturbed run.earlierSteps.toList → run.Tracked) (count : Nat) :
    run.solver.Undisturbed (run.afterSteps count).earlierSteps.toList →
      (run.afterSteps count).Tracked := by
  rw [← run.afterSteps_solver count]
  refine (afterSteps_induction (fun later : Run form => 0 ≤ later.solver.tolerance ∧
    (later.solver.Undisturbed later.earlierSteps.toList → later.Tracked))
    (fun later kept => ⟨?_, Tracked.step kept.1 kept.2⟩) count ⟨nonneg, tracked⟩).2
  rw [step_solver]
  exact kept.1

theorem initial_tracked (canonical : form.Canonical) (solver : Solver Rat) (sense : Sense) :
    (initial solver sense form).Tracked :=
  ⟨Tableau.initial_hasExactRows canonical, fun impossible => nomatch impossible⟩

/-- The levels of a tracked run solve the equations. -/
theorem Tracked.solves (tracked : run.Tracked) : form.Solves run.tableau.levelOf := by
  obtain ⟨ideal, inverse, represents, nonneg, same⟩ := tracked.rows
  rw [← same.levelOf]
  exact represents.solves_levelOf nonneg

/-- At an optimal end no artificial level is above the tolerance. -/
theorem Tracked.artificial_le (tracked : run.Tracked) (nonneg : 0 ≤ run.solver.tolerance)
    (ended : run.status = some .optimal) (j : Fin form.numColumns)
    (artificial : form.isArtificial j = true) :
    run.tableau.levelOf j ≤ run.solver.tolerance := by
  by_cases basic : j ∈ Set.range run.tableau.basis.get
  · obtain ⟨row, rfl⟩ := basic
    have tested := List.any_eq_false.1 (tracked.settled ended) row (List.mem_finRange row)
    rw [Tableau.levelOf_basis tracked.rows.basis_injective]
    simpa [artificial] using tested
  · rw [Tableau.levelOf_of_not_basic basic]
    exact nonneg

end Run

/-! ### Solving with a tolerance -/

namespace Run

variable {problem : Problem Rat} {valid : problem.Valid} {run : Run (.ofProblem problem valid)}

/-- At an optimal end of a tracked run the values miss no constraint by more than the tolerance. -/
theorem Tracked.holdsWithin (tracked : run.Tracked) (nonneg : 0 ≤ run.solver.tolerance)
    (ended : run.status = some .optimal) (i : Fin problem.numRows) :
    (problem.row i).relation.HoldsWithin run.solver.tolerance ((problem.row i).lhs run.values)
      (problem.row i).rhs := by
  rw [values_eq_pointOf]
  exact StandardForm.holdsWithin_pointOf valid tracked.solves nonneg
    (tracked.artificial_le nonneg ended) i

theorem values_nonneg (tracked : run.Tracked) : ∀ level ∈ run.values, 0 ≤ level := by
  intro level member
  rw [values_eq_pointOf] at member
  obtain ⟨j, rfl⟩ := List.mem_ofFn.1 member
  exact tracked.solves.nonneg _

/-- At an optimal end the values of the solution are those of the run. -/
theorem values_of_optimal (ended : run.status = some .optimal) :
    run.solution.outcome.values = run.values := by
  show run.outcome.values = run.values
  unfold outcome
  rw [ended]
  rfl

end Run

/-- Solving a valid problem runs its standard form to the end, and as long as the tolerance decides
nothing the run is tracked. -/
theorem Solver.solve_eq_tracked (solver : Solver Rat) (nonneg : 0 ≤ solver.tolerance)
    {problem : Problem Rat} (valid : problem.Valid) :
    ∃ run : Run (.ofProblem problem valid), solver.solve problem = .ok run.solution ∧
      run.solver = solver ∧ (solver.Undisturbed run.earlierSteps.toList → run.Tracked) :=
  ⟨_, solver.solve_eq_afterSteps valid, Run.afterSteps_solver _ _,
    Run.tracked_afterSteps nonneg (fun _ => Run.initial_tracked
      (StandardForm.canonical_ofProblem valid) solver problem.sense) _⟩

/-- An optimum with a tolerance. With a tolerance that is not above the default one, every valid
problem is solved. When the solution is optimal and the tolerance has decided nothing in its
steps, there is one value for each variable, none is negative, and every constraint passes its
check. -/
theorem Solver.optimal_isSatisfied (solver : Solver Rat) (nonneg : 0 ≤ solver.tolerance)
    (small : solver.tolerance ≤ Scalar.epsilon) (problem : Problem Rat) (valid : problem.Valid) :
    ∃ solution, solver.solve problem = .ok solution ∧
      (solution.status = .optimal → solver.Undisturbed solution.steps →
        solution.outcome.values.length = problem.numVars ∧
        (∀ level ∈ solution.outcome.values, 0 ≤ level) ∧
        ∀ constraint ∈ problem.constraints,
          constraint.isSatisfiedBy solution.outcome.values = true) := by
  obtain ⟨run, solved, rfl, kept⟩ := solver.solve_eq_tracked nonneg valid
  refine ⟨_, solved, fun ended undisturbed => ?_⟩
  have tracked := kept (undisturbed_snoc_iff.1 undisturbed).1
  have optimal := Run.status_of_solution ended fun same => nomatch same
  rw [Run.values_of_optimal optimal]
  refine ⟨?_, run.values_nonneg tracked, fun constraint member => ?_⟩
  · rw [Run.values_eq_pointOf]
    exact StandardForm.pointOf_length valid _
  · obtain ⟨i, rfl⟩ := List.mem_iff_get.1 member
    exact Constraint.isSatisfiedBy_iff.2 ((tracked.holdsWithin nonneg optimal i).mono small)

/-- The statement at a problem that the cautious rule solves with the default tolerance. -/
theorem Solver.optimal_isSatisfied_mixedProblem :
    (0 : Rat) ≤ ({ rule := .bland } : Solver Rat).tolerance ∧
      ({ rule := .bland } : Solver Rat).tolerance ≤ Scalar.epsilon ∧ mixedProblem.Valid ∧
      ∃ solution, ({ rule := .bland } : Solver Rat).solve mixedProblem = .ok solution ∧
        solution.status = .optimal ∧
        ({ rule := .bland } : Solver Rat).Undisturbed solution.steps ∧
        (∀ level ∈ solution.outcome.values, 0 ≤ level) ∧
        ∀ constraint ∈ mixedProblem.constraints,
          constraint.isSatisfiedBy solution.outcome.values = true := by
  refine ⟨epsilon_nonneg, le_rfl, mixedProblem_valid, ?_⟩
  obtain ⟨solution, solved, satisfied⟩ := optimal_isSatisfied { rule := .bland } epsilon_nonneg
    le_rfl mixedProblem mixedProblem_valid
  have ran : (({ rule := .bland } : Solver Rat).solve mixedProblem).map (fun solution =>
      (solution.status, decide (({ rule := .bland } : Solver Rat).Undisturbed solution.steps))) =
      .ok (.optimal, true) := by decide +kernel
  rw [solved] at ran
  obtain ⟨optimal, undisturbed⟩ := Prod.mk.inj (Except.ok.inj ran)
  obtain ⟨_, nonneg, passed⟩ := satisfied optimal (of_decide_eq_true undisturbed)
  exact ⟨solution, solved, optimal, of_decide_eq_true undisturbed, nonneg, passed⟩

/-! ### Where the tolerance decides -/

/-- The solver reports an optimum at which some constraint fails its check. -/
def Solver.ReportsViolation (solver : Solver Rat) (problem : Problem Rat) : Prop :=
  ∃ solution, solver.solve problem = .ok solution ∧ solution.status = .optimal ∧
    ∃ constraint ∈ problem.constraints, constraint.isSatisfiedBy solution.outcome.values = false

theorem Solver.reportsViolation_of_run {solver : Solver Rat} {problem : Problem Rat}
    (ran : (solver.solve problem).map (fun solution =>
      (solution.status, problem.constraints.all fun constraint =>
        constraint.isSatisfiedBy solution.outcome.values)) = .ok (.optimal, false)) :
    solver.ReportsViolation problem := by
  cases solved : solver.solve problem with
  | error fault =>
    rw [solved] at ran
    cases ran
  | ok solution =>
    rw [solved] at ran
    obtain ⟨optimal, violated⟩ := Prod.mk.inj (Except.ok.inj ran)
    obtain ⟨constraint, member, failed⟩ := List.all_eq_false.1 violated
    exact ⟨solution, solved, optimal, constraint, member, Bool.not_eq_true _ ▸ failed⟩

/-- A problem with a coefficient that is smaller than the default tolerance, of a variable that
grows large. -/
def skippedEntryProblem : Problem Rat :=
  (((Problem.withVariables 2).setObjective [1, 0] .maximize).constrain [-1 / 10000000000, 1] .equal
    1).constrain [1, 0] .atMost 10000000000

/-- A problem with two ratios that differ by less than the default tolerance, one of them in a row
with large numbers. -/
def narrowTieProblem : Problem Rat :=
  (((Problem.withVariables 1).setObjective [1] .maximize).constrain [1] .atMost
    (1 + 1 / 2000000000)).constrain [1000000000] .atMost 1000000000

/-- With the default tolerance both rules report an optimum that violates a constraint when a pivot
skips a small entry, and the cautious rule does when its tie-break takes the larger ratio. -/
theorem Solver.reportsViolation_of_tolerance :
    skippedEntryProblem.Valid ∧ narrowTieProblem.Valid ∧
      ({} : Solver Rat).ReportsViolation skippedEntryProblem ∧
      ({ rule := .bland } : Solver Rat).ReportsViolation skippedEntryProblem ∧
      ({ rule := .bland } : Solver Rat).ReportsViolation narrowTieProblem :=
  ⟨Problem.fault?_eq_none_iff.1 (by decide +kernel),
    Problem.fault?_eq_none_iff.1 (by decide +kernel),
    reportsViolation_of_run (by decide +kernel), reportsViolation_of_run (by decide +kernel),
    reportsViolation_of_run (by decide +kernel)⟩

end LinearProgramming
