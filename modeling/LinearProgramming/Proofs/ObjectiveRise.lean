/-
This file proves that the objective of a run never goes down when the run computes exactly.

A pivot lets a column enter whose entry in the objective row is negative, and adds to the objective
what that entry gains over the ratio of the leaving row. No right-hand side is negative, so neither
is the ratio: the objective rises where the ratio is positive and stays where it is zero. All other
steps keep the tableau.

The objective depends on the set of the basic columns alone. A run that comes back to such a set
has therefore not risen meanwhile, and every pivot in between had a ratio of zero. This holds for
both rules: the steepest rule may go round such a circle, the cautious rule never closes one.
-/

import Mathlib
import LinearProgramming.Proofs.CycleFreedom

namespace LinearProgramming

namespace Run

variable {form : StandardForm Rat} {run : Run form}

/-- The next step of a run is a pivot with a ratio, by which the objective rises. -/
structure RisesBy (run : Run form) (choice : Pivot Rat form.numRows form.numColumns)
    (ratio : Rat) : Prop where
  step_eq : run.step = run.pivotAt choice
  ratio_eq : choice.ratios.get choice.row = some ratio
  ratio_nonneg : 0 ≤ ratio
  objective_eq : run.step.2.tableau.objective =
    run.tableau.objective - ratio • run.tableau.objectiveEntry choice.column
  objective_le : run.tableau.objective ≤ run.step.2.tableau.objective
  objective_lt : 0 < ratio → run.tableau.objective < run.step.2.tableau.objective

/-- A pivot that leaves the objective as it is has a ratio of zero. -/
theorem RisesBy.ratio_eq_zero {choice : Pivot Rat form.numRows form.numColumns} {ratio : Rat}
    (rises : run.RisesBy choice ratio)
    (same : run.step.2.tableau.objective = run.tableau.objective) : ratio = 0 := by
  refine le_antisymm (not_lt.1 fun positive => ?_) rises.ratio_nonneg
  exact (rises.objective_lt positive).ne same.symm

/-! ### One step -/

namespace Exact

variable (exact : run.Exact)

include exact

/-- Every pivot takes the entry of its column times its ratio from the objective. -/
theorem exists_risesBy (pivots : run.Pivots) : ∃ choice ratio, run.RisesBy choice ratio := by
  obtain ⟨column, row, entered, left, made⟩ := step_eq_of_pivots pivots
  obtain ⟨inverse, represents⟩ := exact.represents
  have negative := exact.neg_of_entering_eq_some entered
  have positive := exact.entry_pos_of_left left
  have present : (run.ratiosOf column).get row =
      some (run.tableau.rhs row / run.tableau.entry row column) := by
    rw [ratiosOf, exact.tolerance, Tableau.get_ratios, if_pos positive]
  have pivoted : run.step.2.tableau = run.tableau.pivot 0 row column := by
    rw [made]
    exact exact.tableau_pivotAt _
  have moved : run.step.2.tableau.objective = run.tableau.objective -
      (run.tableau.rhs row / run.tableau.entry row column) •
        run.tableau.objectiveEntry column := by
    rw [pivoted]
    exact represents.objective_pivot positive.ne'
  have risen : run.tableau.objective ≤ run.step.2.tableau.objective := by
    rw [pivoted]
    exact represents.objective_le_pivot (exact.rhs_nonneg row) positive negative
  refine ⟨⟨row, column, run.ratiosOf column⟩, _, made, present,
    div_nonneg (exact.rhs_nonneg row) positive.le, moved, risen, fun ratio => ?_⟩
  refine lt_of_le_of_ne risen fun same => ?_
  rw [moved, eq_comm, sub_eq_self, smul_eq_zero] at same
  rcases same with zero | zero
  · exact ratio.ne' zero
  · exact negative.ne zero

/-- No step lowers the objective. -/
theorem objective_le_step : run.tableau.objective ≤ run.step.2.tableau.objective := by
  by_cases pivots : run.Pivots
  · obtain ⟨choice, ratio, rises⟩ := exact.exists_risesBy pivots
    exact rises.objective_le
  · rw [tableau_step_of_not_pivots pivots]

/-! ### Any number of steps -/

theorem objective_monotone : Monotone fun count => (run.afterSteps count).tableau.objective := by
  refine monotone_nat_of_le_succ fun count => ?_
  rw [afterSteps_succ]
  exact (exact.afterSteps count).objective_le_step

/-- Between two tableaux with the same basic columns the objective stays as it is. -/
theorem objective_eq_of_recurs {earlier later : Nat}
    (recurs : (run.afterSteps earlier).tableau.basicColumns =
      (run.afterSteps later).tableau.basicColumns)
    {count : Nat} (after : earlier ≤ count) (before : count ≤ later) :
    (run.afterSteps count).tableau.objective = (run.afterSteps earlier).tableau.objective := by
  obtain ⟨inverse, represents⟩ := (exact.afterSteps earlier).represents
  obtain ⟨inverse', represents'⟩ := (exact.afterSteps later).represents
  refine le_antisymm ?_ (exact.objective_monotone after)
  rw [represents.objective_congr represents' (exact.afterSteps later).rhs_nonneg recurs]
  exact exact.objective_monotone before

/-- Between two tableaux with the same basic columns every pivot has a ratio of zero. -/
theorem risesBy_zero_of_recurs {earlier later : Nat}
    (recurs : (run.afterSteps earlier).tableau.basicColumns =
      (run.afterSteps later).tableau.basicColumns)
    {count : Nat} (after : earlier ≤ count) (before : count < later)
    (pivots : (run.afterSteps count).Pivots) :
    ∃ choice, (run.afterSteps count).RisesBy choice 0 := by
  obtain ⟨choice, ratio, rises⟩ := (exact.afterSteps count).exists_risesBy pivots
  have same : (run.afterSteps count).step.2.tableau.objective =
      (run.afterSteps count).tableau.objective := by
    rw [← afterSteps_succ, exact.objective_eq_of_recurs recurs (Nat.le_succ_of_le after) before,
      exact.objective_eq_of_recurs recurs after before.le]
  exact ⟨choice, rises.ratio_eq_zero same ▸ rises⟩

end Exact

end Run

namespace Solver

/-- The objective never goes down. Without tolerance a valid problem is started under either rule;
each pivot of the run takes from the objective the entry of the entering column times its ratio,
which does not lower it and raises it where the ratio is positive; the objective never falls over
any number of steps; and between two tableaux with the same basic columns all pivots have a ratio
of zero. -/
theorem objective_rises (solver : Solver Rat) (exact : solver.tolerance = 0)
    (problem : Problem Rat) (valid : problem.Valid) :
    ∃ run : Run (.ofProblem problem valid),
      solver.start problem = .ok ⟨.ofProblem problem valid, run⟩ ∧
        (∀ count, (run.afterSteps count).Pivots →
          ∃ choice ratio, (run.afterSteps count).RisesBy choice ratio) ∧
        Monotone (fun count => (run.afterSteps count).tableau.objective) ∧
        ∀ earlier later, (run.afterSteps earlier).tableau.basicColumns =
            (run.afterSteps later).tableau.basicColumns →
          ∀ count, earlier ≤ count → count < later → (run.afterSteps count).Pivots →
            ∃ choice, (run.afterSteps count).RisesBy choice 0 := by
  have runExact := Run.initial_exact (StandardForm.canonical_ofProblem valid) exact problem.sense
  exact ⟨_, solver.start_eq valid,
    fun count pivots => (runExact.afterSteps count).exists_risesBy pivots,
    runExact.objective_monotone,
    fun _ _ recurs _ after before pivots =>
      runExact.risesBy_zero_of_recurs recurs after before pivots⟩

/-- The statement at a problem on which the steepest rule comes back to its first basic columns
after six pivots. -/
theorem objective_rises_degenerateProblem :
    ({ tolerance := 0 } : Solver Rat).tolerance = 0 ∧
      ∃ run : Run (.ofProblem degenerateProblem degenerateProblem_valid),
        ({ tolerance := 0 } : Solver Rat).start degenerateProblem =
            .ok ⟨.ofProblem degenerateProblem degenerateProblem_valid, run⟩ ∧
          (run.afterSteps 0).tableau.basicColumns = (run.afterSteps 6).tableau.basicColumns ∧
          ∀ count < 6, (run.afterSteps count).Pivots ∧
            ∃ choice, (run.afterSteps count).RisesBy choice 0 := by
  obtain ⟨run, started, _, _, still⟩ :=
    objective_rises { tolerance := 0 } rfl degenerateProblem degenerateProblem_valid
  have circle : (run.afterSteps 0).tableau.basicColumns =
      (run.afterSteps 6).tableau.basicColumns ∧ (run.afterSteps 6).status = none := by
    cases (Solver.start_eq _ degenerateProblem_valid).symm.trans started
    decide +kernel
  refine ⟨rfl, run, started, circle.1, fun count before => ?_⟩
  have pivots := (Run.pivots_before circle.2).2 count before
  exact ⟨pivots, still 0 6 circle.1 count (Nat.zero_le _) before pivots⟩

end Solver

end LinearProgramming
