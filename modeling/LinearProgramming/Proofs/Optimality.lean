/-
This file proves that the ends of a tableau run without tolerance are what they are said to be.

The basic levels of a tableau solve the equations, and the objective row prices every other
solution: its costs fall short of the objective of the tableau by exactly its levels times that
row. Where no entry of the row is negative, no solution costs more, in the order that puts
penalties first. If no artificial unknown is left, the tableau has the best point of the problem,
and if one is left, a feasible point would be a solution without penalty where there is none.
-/

import Mathlib
import LinearProgramming.Proofs.StandardForm.Faithful
import LinearProgramming.Proofs.TableauRun

namespace LinearProgramming

/-! ### The basic levels -/

namespace Tableau

variable {m n : Nat}

/-- Numbers of the rows placed at their basic columns, with zero at every other column. -/
def spread (tableau : Tableau Rat m n) (levels : Fin m → Rat) (column : Fin n) : Rat :=
  ((tableau.basicRow? column.val).map levels).getD 0

/-- The level of a column at the basis. -/
def levelOf (tableau : Tableau Rat m n) (column : Fin n) : Rat := tableau.valueOf column.val

/-- The right-hand sides placed at their basic columns are the levels. -/
theorem levelOf_eq_spread (tableau : Tableau Rat m n) :
    tableau.levelOf = tableau.spread tableau.rhs := rfl

theorem basis_of_basicRow? {tableau : Tableau Rat m n} {number : Nat} {row : Fin m}
    (found : tableau.basicRow? number = some row) : (tableau.basis.get row).val = number :=
  eq_of_beq (List.find?_some (p := fun row => (tableau.basis.get row).val == number) found)

theorem basicRow?_basis {tableau : Tableau Rat m n}
    (injective : Function.Injective tableau.basis.get) (row : Fin m) :
    tableau.basicRow? (tableau.basis.get row).val = some row := by
  cases found : tableau.basicRow? (tableau.basis.get row).val with
  | none =>
    have skipped := List.find?_eq_none.1 found row (List.mem_finRange row)
    rw [beq_self_eq_true] at skipped
    exact absurd rfl skipped
  | some other => rw [injective (Fin.ext (basis_of_basicRow? found))]

theorem spread_basis {tableau : Tableau Rat m n} {levels : Fin m → Rat}
    (injective : Function.Injective tableau.basis.get) (row : Fin m) :
    tableau.spread levels (tableau.basis.get row) = levels row := by
  unfold spread
  rw [basicRow?_basis injective row]
  rfl

theorem spread_of_not_basic {tableau : Tableau Rat m n} {levels : Fin m → Rat} {column : Fin n}
    (notBasic : column ∉ Set.range tableau.basis.get) : tableau.spread levels column = 0 := by
  have absent : tableau.basicRow? column.val = none := by
    refine List.find?_eq_none.2 fun row _ equal => notBasic ⟨row, ?_⟩
    exact Fin.ext (eq_of_beq equal)
  unfold spread
  rw [absent]
  rfl

theorem spread_nonneg {tableau : Tableau Rat m n} {levels : Fin m → Rat}
    (injective : Function.Injective tableau.basis.get) (nonneg : ∀ row, 0 ≤ levels row)
    (column : Fin n) : 0 ≤ tableau.spread levels column := by
  by_cases basic : column ∈ Set.range tableau.basis.get
  · obtain ⟨row, rfl⟩ := basic
    rw [spread_basis injective]
    exact nonneg row
  · rw [spread_of_not_basic basic]

/-- A sum over all columns that spread numbers weigh is a sum over the rows. -/
theorem sum_spread_smul {β : Type} [AddCommMonoid β] [Module Rat β] {tableau : Tableau Rat m n}
    (injective : Function.Injective tableau.basis.get) (levels : Fin m → Rat) (term : Fin n → β) :
    ∑ column, tableau.spread levels column • term column =
      ∑ row, levels row • term (tableau.basis.get row) := by
  refine (Fintype.sum_of_injective tableau.basis.get injective _ _ ?_ ?_).symm
  · intro column notBasic
    rw [spread_of_not_basic notBasic, zero_smul]
  · intro row
    rw [spread_basis injective]

/-- A basic column has the right-hand side of its row as level. -/
theorem levelOf_basis {tableau : Tableau Rat m n}
    (injective : Function.Injective tableau.basis.get) (row : Fin m) :
    tableau.levelOf (tableau.basis.get row) = tableau.rhs row :=
  spread_basis injective row

/-- A column that is not basic has no level. -/
theorem levelOf_of_not_basic {tableau : Tableau Rat m n} {column : Fin n}
    (notBasic : column ∉ Set.range tableau.basis.get) : tableau.levelOf column = 0 :=
  spread_of_not_basic notBasic

namespace Represents

variable {form : StandardForm Rat}
  {inverse : Matrix (Fin form.numRows) (Fin form.numRows) Rat}
  {tableau : Tableau Rat form.numRows form.numColumns}
  (represents : Represents form inverse tableau)

include represents

/-- The inverse times any right-hand sides, placed at the basic columns, satisfies the equations
with these right-hand sides. -/
theorem equations_spread (right : Fin form.numRows → Rat) (i : Fin form.numRows) :
    ∑ j, form.a.get i j * tableau.spread (inverse.mulVec right) j = right i := by
  have weighed := sum_spread_smul represents.basis_injective (inverse.mulVec right)
    fun j => form.a.get i j
  simp only [smul_eq_mul, mul_comm (tableau.spread _ _), mul_comm (inverse.mulVec _ _)] at weighed
  have inverted : form.basisOf tableau.basis * inverse = 1 :=
    mul_eq_one_comm.1 represents.inverts
  calc ∑ j, form.a.get i j * tableau.spread (inverse.mulVec right) j
      = ((form.basisOf tableau.basis).mulVec (inverse.mulVec right)) i := weighed
    _ = right i := by
      rw [Matrix.mulVec_mulVec, inverted, Matrix.one_mulVec]

/-- The basic levels solve the equations. -/
theorem solves_levelOf (nonneg : ∀ row, 0 ≤ tableau.rhs row) :
    form.Solves tableau.levelOf where
  nonneg := spread_nonneg represents.basis_injective nonneg
  equations i := by
    have levels : tableau.rhs = inverse.mulVec form.b.get := funext represents.rhs_eq
    rw [levelOf_eq_spread, levels]
    exact represents.equations_spread form.b.get i

/-- The costs of the basic levels are the objective of the tableau. -/
theorem costOf_levelOf : form.costOf tableau.levelOf = tableau.objective := by
  unfold StandardForm.costOf
  rw [levelOf_eq_spread, sum_spread_smul represents.basis_injective, represents.objective_eq]

/-- The rows of the tableau hold of all levels that satisfy the equations with any right-hand
sides, which the inverse turns along. -/
theorem sum_entry_mul_of_equations {levels : Fin form.numColumns → Rat}
    {right : Fin form.numRows → Rat}
    (equations : ∀ i, ∑ j, form.a.get i j * levels j = right i) (row : Fin form.numRows) :
    ∑ j, tableau.entry row j * levels j = inverse.mulVec right row := by
  have product : form.a.toMatrix.mulVec levels = right := funext equations
  calc ∑ j, tableau.entry row j * levels j
      = ((inverse * form.a.toMatrix).mulVec levels) row := by
        simp only [Matrix.mulVec, dotProduct, represents.entry_eq]
    _ = inverse.mulVec right row := by
        rw [← Matrix.mulVec_mulVec, product]

/-- The objective row prices all levels that satisfy the equations: their costs and the levels
times the row make up what the basic columns cost at the right-hand sides. -/
theorem costOf_add_sum_of_equations {levels : Fin form.numColumns → Rat}
    {right : Fin form.numRows → Rat}
    (equations : ∀ i, ∑ j, form.a.get i j * levels j = right i) :
    form.costOf levels + ∑ j, levels j • tableau.objectiveEntry j =
      ∑ row, inverse.mulVec right row • form.costs.get (tableau.basis.get row) := by
  have swapped : ∑ j, levels j • ∑ row, tableau.entry row j •
        form.costs.get (tableau.basis.get row) =
      ∑ row, inverse.mulVec right row • form.costs.get (tableau.basis.get row) := by
    simp only [Finset.smul_sum, smul_smul]
    rw [Finset.sum_comm]
    refine Finset.sum_congr rfl fun row _ => ?_
    rw [← Finset.sum_smul, ← represents.sum_entry_mul_of_equations equations row]
    simp only [mul_comm]
  simp only [represents.objectiveEntry_eq, smul_sub, Finset.sum_sub_distrib, swapped]
  exact add_sub_cancel _ _

/-- The rows of the tableau hold of every solution. -/
theorem sum_entry_mul {levels : Fin form.numColumns → Rat} (solves : form.Solves levels)
    (row : Fin form.numRows) : ∑ j, tableau.entry row j * levels j = tableau.rhs row := by
  rw [represents.sum_entry_mul_of_equations solves.equations, represents.rhs_eq]

/-- The objective row prices every solution: its costs and its levels times the row make up the
objective of the tableau. -/
theorem costOf_add_sum {levels : Fin form.numColumns → Rat} (solves : form.Solves levels) :
    form.costOf levels + ∑ j, levels j • tableau.objectiveEntry j = tableau.objective := by
  rw [represents.costOf_add_sum_of_equations solves.equations, represents.objective_eq]
  simp only [represents.rhs_eq]

/-- Where no entry of the objective row is negative, no solution costs more than the tableau. -/
theorem costOf_le (nonneg : ∀ j, 0 ≤ tableau.objectiveEntry j)
    {levels : Fin form.numColumns → Rat} (solves : form.Solves levels) :
    form.costOf levels ≤ tableau.objective := by
  rw [← represents.costOf_add_sum solves]
  exact le_add_of_nonneg_right
    (Finset.sum_nonneg fun j _ => smul_nonneg (solves.nonneg j) (nonneg j))

end Represents

end Tableau

/-! ### The ends of a run -/

namespace Run

variable {form : StandardForm Rat} {run : Run form}

theorem hasPositiveArtificial_iff (exact : run.Exact) :
    run.hasPositiveArtificial = true ↔
      ∃ row, form.isArtificial (run.tableau.basis.get row) = true ∧ 0 < run.tableau.rhs row := by
  unfold hasPositiveArtificial
  rw [exact.tolerance, List.any_eq_true]
  simp [List.mem_finRange]

/-- Where no artificial column is basic with a positive right-hand side, no artificial unknown has
a level. -/
theorem Exact.noArtificial (exact : run.Exact) (settled : run.hasPositiveArtificial = false) :
    form.NoArtificial run.tableau.levelOf := by
  intro column artificial
  obtain ⟨inverse, represents⟩ := exact.represents
  by_cases basic : column ∈ Set.range run.tableau.basis.get
  · obtain ⟨row, rfl⟩ := basic
    rw [Tableau.levelOf_basis represents.basis_injective]
    refine le_antisymm (not_lt.1 fun positive => ?_) (exact.rhs_nonneg row)
    have found := (hasPositiveArtificial_iff exact).2 ⟨row, artificial, positive⟩
    rw [settled] at found
    cases found
  · exact Tableau.levelOf_of_not_basic basic

/-- At an optimal end no artificial unknown has a level, and no solution costs more. -/
theorem Exact.optimal (exact : run.Exact) (ended : run.status = some .optimal) :
    form.Solves run.tableau.levelOf ∧ form.NoArtificial run.tableau.levelOf ∧
      ∀ levels, form.Solves levels → form.costOf levels ≤ run.tableau.objective := by
  obtain ⟨inverse, represents⟩ := exact.represents
  have shown := exact.showsEnd
  rw [ended] at shown
  obtain ⟨nonneg, settled⟩ := shown
  exact ⟨represents.solves_levelOf exact.rhs_nonneg, exact.noArtificial settled,
    fun levels solves => represents.costOf_le nonneg solves⟩

/-- At an infeasible end every solution has an artificial level. -/
theorem Exact.infeasible (canonical : form.Canonical) (exact : run.Exact)
    (ended : run.status = some .infeasible) {levels : Fin form.numColumns → Rat}
    (solves : form.Solves levels) : ¬ form.NoArtificial levels := by
  intro noArtificial
  obtain ⟨inverse, represents⟩ := exact.represents
  have shown := exact.showsEnd
  rw [ended] at shown
  obtain ⟨nonneg, settled⟩ := shown
  obtain ⟨row, artificial, positive⟩ := (hasPositiveArtificial_iff exact).1 settled
  have basic := represents.solves_levelOf exact.rhs_nonneg
  rw [← Tableau.levelOf_basis represents.basis_injective] at positive
  -- the tableau pays a penalty, and a solution without one would cost more
  have penalized := canonical.penalty_costOf_neg basic.nonneg artificial positive
  rw [represents.costOf_levelOf] at penalized
  have below := BigM.penalty_le_of_le (represents.costOf_le nonneg solves)
  rw [canonical.penalty_costOf_eq_zero noArtificial] at below
  exact absurd penalized (not_lt.2 below)

theorem values_eq_pointOf : run.values = form.pointOf run.tableau.levelOf := by
  unfold values StandardForm.pointOf
  rw [List.ofFn_eq_map, ← List.map_coe_finRange_eq_range, List.map_map]
  rfl

/-- A solution that is not short of convergence has the status of its run. -/
theorem status_of_solution {status : Status} (ended : run.solution.status = status)
    (converged : status ≠ .notConverged) : run.status = some status := by
  change run.outcome.status = status at ended
  unfold outcome at ended
  split at ended
  · rename_i optimal
    rw [optimal, ← ended]
    rfl
  · rename_i infeasible
    rw [infeasible, ← ended]
    rfl
  · rename_i unbounded
    rw [unbounded, ← ended]
    rfl
  · exact absurd ended.symm converged
  · exact absurd ended.symm converged

/-- A solution that is short of convergence comes from a run that stopped at the cap or has not
stopped. -/
theorem status_of_notConverged (stopped : run.solution.status = .notConverged) :
    run.status = none ∨ run.status = some .notConverged := by
  change run.outcome.status = .notConverged at stopped
  unfold outcome at stopped
  split at stopped
  · cases stopped
  · cases stopped
  · cases stopped
  · rename_i capped
    exact Or.inr capped
  · rename_i running
    exact Or.inl running

theorem step_sense (run : Run form) : run.step.2.sense = run.sense := by
  have made := run.stepOf_step
  generalize run.step = result at made
  cases made <;> rfl

theorem afterSteps_sense (run : Run form) (count : Nat) :
    (run.afterSteps count).sense = run.sense :=
  afterSteps_induction (fun later => later.sense = run.sense)
    (fun later same => (step_sense later).trans same) count rfl

end Run

/-! ### Solving a problem -/

namespace Run

variable {problem : Problem Rat} {valid : problem.Valid} {run : Run (.ofProblem problem valid)}

/-- At an optimal end the values are a best point and the objective is theirs. -/
theorem Exact.isBest (exact : run.Exact) (sense : run.sense = problem.sense)
    (ended : run.status = some .optimal) :
    problem.IsBest run.values ∧ run.objectiveValue = problem.evaluate run.values := by
  obtain ⟨solves, noArtificial, best⟩ := exact.optimal ended
  obtain ⟨inverse, represents⟩ := exact.represents
  have objective := StandardForm.costOf_eq_pointOf valid noArtificial
  rw [represents.costOf_levelOf, ← values_eq_pointOf] at objective
  refine ⟨⟨?_, fun other feasible => ?_⟩, ?_⟩
  · rw [values_eq_pointOf]
    exact StandardForm.feasible_pointOf valid solves noArtificial
  · have below := best _ (StandardForm.solves_levelsAt valid feasible)
    rw [StandardForm.costOf_levelsAt, objective] at below
    exact Sense.not_better_iff.2 (BigM.ofScalar_le_iff.1 below)
  · unfold objectiveValue
    rw [objective, sense]
    exact Sense.orient_orient _ _

/-- At an infeasible end no point is feasible. -/
theorem Exact.not_feasible (exact : run.Exact) (ended : run.status = some .infeasible)
    (point : List Rat) : ¬ problem.Feasible point := fun feasible =>
  exact.infeasible (StandardForm.canonical_ofProblem valid) ended
    (StandardForm.solves_levelsAt valid feasible)
    (StandardForm.noArtificial_levelsAt valid point feasible.length)

end Run

namespace Solver

/-- Without tolerance, solving a valid problem runs its standard form to the end, and the run
keeps the invariant. -/
theorem solve_eq (solver : Solver Rat) (exact : solver.tolerance = 0) {problem : Problem Rat}
    (valid : problem.Valid) :
    ∃ run : Run (.ofProblem problem valid), solver.solve problem = .ok run.solution ∧
      run.Exact ∧ run.sense = problem.sense := by
  refine ⟨_, solver.solve_eq_afterSteps valid, ?_, Run.afterSteps_sense _ _⟩
  exact (Run.initial_exact (StandardForm.canonical_ofProblem valid) exact _).afterSteps _

/-- What the outcomes without tolerance say about a valid problem. -/
theorem outcome_sound (solver : Solver Rat) (exact : solver.tolerance = 0)
    {problem : Problem Rat} (valid : problem.Valid) :
    ∃ solution, solver.solve problem = .ok solution ∧
      (∀ values objective, solution.outcome = .optimal values objective →
        problem.IsBest values ∧ objective = problem.evaluate values) ∧
      (solution.outcome = .infeasible → ∀ point, ¬ problem.Feasible point) := by
  obtain ⟨run, solved, runExact, sense⟩ := solver.solve_eq exact valid
  refine ⟨run.solution, solved, fun values objective reported => ?_, fun reported => ?_⟩
  · change run.outcome = _ at reported
    unfold Run.outcome at reported
    split at reported <;> cases reported
    rename_i ended
    exact runExact.isBest sense ended
  · change run.outcome = _ at reported
    unfold Run.outcome at reported
    split at reported <;> cases reported
    rename_i ended
    exact runExact.not_feasible ended

/-- Optimality is sound. Without tolerance every valid problem is solved, and when the solution is
optimal its values are a feasible point that no feasible point betters, with their objective. -/
theorem optimal_isBest (solver : Solver Rat) (exact : solver.tolerance = 0)
    (problem : Problem Rat) (valid : problem.Valid) :
    ∃ solution, solver.solve problem = .ok solution ∧
      (solution.status = .optimal →
        problem.IsBest solution.outcome.values ∧
          solution.outcome.objectiveValue =
            some (.finite (problem.evaluate solution.outcome.values))) := by
  obtain ⟨solution, solved, sound, _⟩ := solver.outcome_sound exact valid
  refine ⟨solution, solved, fun ended => ?_⟩
  unfold Solution.status at ended
  cases reported : solution.outcome with
  | optimal values objective =>
    obtain ⟨best, same⟩ := sound values objective reported
    exact ⟨best, by rw [same]; rfl⟩
  | infeasible => rw [reported] at ended; cases ended
  | unbounded sense => rw [reported] at ended; cases ended
  | notConverged => rw [reported] at ended; cases ended

/-- The statement at a problem that is solved to an optimal end. -/
theorem optimal_isBest_mixedProblem :
    ({ tolerance := 0 } : Solver Rat).tolerance = 0 ∧ mixedProblem.Valid ∧
      ∃ solution, ({ tolerance := 0 } : Solver Rat).solve mixedProblem = .ok solution ∧
        solution.status = .optimal ∧ mixedProblem.IsBest solution.outcome.values ∧
        solution.outcome.objectiveValue =
          some (.finite (mixedProblem.evaluate solution.outcome.values)) := by
  refine ⟨rfl, mixedProblem_valid, ?_⟩
  obtain ⟨solution, solved, best⟩ :=
    optimal_isBest { tolerance := 0 } rfl mixedProblem mixedProblem_valid
  have ended : (({ tolerance := 0 } : Solver Rat).solve mixedProblem).map Solution.status =
      .ok .optimal := by decide +kernel
  rw [solved] at ended
  have optimal : solution.status = .optimal := Except.ok.inj ended
  exact ⟨solution, solved, optimal, best optimal⟩

/-- Infeasibility is sound. Without tolerance every valid problem is solved, and when the solution
is infeasible no point is feasible. -/
theorem infeasible_not_feasible (solver : Solver Rat) (exact : solver.tolerance = 0)
    (problem : Problem Rat) (valid : problem.Valid) :
    ∃ solution, solver.solve problem = .ok solution ∧
      (solution.status = .infeasible → ∀ point, ¬ problem.Feasible point) := by
  obtain ⟨run, solved, runExact, _⟩ := solver.solve_eq exact valid
  refine ⟨run.solution, solved, fun ended => ?_⟩
  exact runExact.not_feasible (Run.status_of_solution ended fun same => nomatch same)

/-- The statement at a problem with constraints that contradict each other. -/
theorem infeasible_not_feasible_contradictoryProblem :
    ({ tolerance := 0 } : Solver Rat).tolerance = 0 ∧ (contradictoryProblem [1, 0]).Valid ∧
      ∃ solution, ({ tolerance := 0 } : Solver Rat).solve (contradictoryProblem [1, 0]) =
          .ok solution ∧
        solution.status = .infeasible ∧ ∀ point, ¬ (contradictoryProblem [1, 0]).Feasible point := by
  have valid : (contradictoryProblem [1, 0]).Valid :=
    Problem.fault?_eq_none_iff.1 (by decide +kernel)
  refine ⟨rfl, valid, ?_⟩
  obtain ⟨solution, solved, sound⟩ :=
    infeasible_not_feasible { tolerance := 0 } rfl (contradictoryProblem [1, 0]) valid
  have ended : (({ tolerance := 0 } : Solver Rat).solve (contradictoryProblem [1, 0])).map
      Solution.status = .ok .infeasible := by decide +kernel
  rw [solved] at ended
  have infeasible : solution.status = .infeasible := Except.ok.inj ended
  exact ⟨solution, solved, infeasible, sound infeasible⟩

end Solver

end LinearProgramming
