/-
This file proves what an unbounded end of a run without tolerance shows, and what it leaves open.

Each column of a tableau is a direction: its own level grows by one and the basic levels make up
for it, so that the equations stay satisfied. Where the objective row is negative under the column
and no entry below is positive, no level falls along the direction and its cost is positive, with
penalties first. Since levels that do not fall pay no negative penalty, the artificial levels stay
where they are and the gain is a gain of the objective itself. Every feasible point therefore
starts a half-line of feasible points without a best one.

The end does not show that there is a feasible point to start from. It comes as soon as one column
has no ratios, also while an artificial column is basic with a positive right-hand side, and no
pivot may ever bring that to zero.
-/

import Mathlib
import LinearProgramming.Proofs.Optimality

namespace LinearProgramming

/-! ### The direction of a column -/

namespace Tableau

section Direction

variable {m n : Nat}

/-- How all levels change when a column grows by one and the basic columns make up for it. -/
def direction (tableau : Tableau Rat m n) (column : Fin n) : Fin n → Rat := fun j =>
  (if j = column then 1 else 0) -
    ∑ row, if tableau.basis.get row = j then tableau.entry row column else 0

/-- A sum over all columns that a direction weighs is a term of the column itself less a sum over
the rows. -/
theorem sum_direction_smul {β : Type} [AddCommGroup β] [Module Rat β] (tableau : Tableau Rat m n)
    (column : Fin n) (term : Fin n → β) :
    ∑ j, tableau.direction column j • term j =
      term column - ∑ row, tableau.entry row column • term (tableau.basis.get row) := by
  have own : ∑ j, (if j = column then (1 : Rat) else 0) • term j = term column := by
    simp [ite_smul]
  have basic : ∑ j, (∑ row, if tableau.basis.get row = j then tableau.entry row column else 0) •
      term j = ∑ row, tableau.entry row column • term (tableau.basis.get row) := by
    simp only [Finset.sum_smul, ite_smul, zero_smul]
    rw [Finset.sum_comm]
    simp
  simp only [direction, sub_smul, Finset.sum_sub_distrib, own, basic]

/-- Where no entry of the column is positive, no level falls along its direction. -/
theorem direction_nonneg {tableau : Tableau Rat m n} {column : Fin n}
    (nonpos : ∀ row, tableau.entry row column ≤ 0) (j : Fin n) :
    0 ≤ tableau.direction column j := by
  have own : (0 : Rat) ≤ if j = column then 1 else 0 := by
    split
    · exact zero_le_one
    · exact le_rfl
  have basic : (∑ row, if tableau.basis.get row = j then tableau.entry row column else 0) ≤ 0 := by
    refine Finset.sum_nonpos fun row _ => ?_
    split
    · exact nonpos row
    · exact le_rfl
  exact sub_nonneg.2 (basic.trans own)

end Direction

namespace Represents

variable {form : StandardForm Rat}
  {inverse other : Matrix (Fin form.numRows) (Fin form.numRows) Rat}
  {tableau tableau' : Tableau Rat form.numRows form.numColumns}
  (represents : Represents form inverse tableau)

include represents

/-- A direction keeps the equations. -/
theorem equations_direction (column : Fin form.numColumns) (i : Fin form.numRows) :
    ∑ j, form.a.get i j * tableau.direction column j = 0 := by
  have inverted : form.basisOf tableau.basis * inverse = 1 :=
    mul_eq_one_comm.1 represents.inverts
  have weighed := sum_direction_smul tableau column fun j => form.a.get i j
  simp only [smul_eq_mul, mul_comm (tableau.direction _ _), mul_comm (tableau.entry _ _)]
    at weighed
  have basic : ∑ row, form.a.get i (tableau.basis.get row) * tableau.entry row column =
      form.a.get i column := by
    calc ∑ row, form.a.get i (tableau.basis.get row) * tableau.entry row column
        = (form.basisOf tableau.basis * (inverse * form.a.toMatrix)) i column := by
          simp only [represents.entry_eq]
          rfl
      _ = form.a.get i column := by
          rw [← Matrix.mul_assoc, inverted, Matrix.one_mul]
          rfl
  rw [weighed, basic, sub_self]

/-- The costs of a direction and its levels times the objective row of any tableau of the form
add up to zero. -/
theorem costOf_direction_add_sum (represents' : Represents form other tableau')
    (column : Fin form.numColumns) :
    form.costOf (tableau.direction column) +
      ∑ j, tableau.direction column j • tableau'.objectiveEntry j = 0 := by
  have priced := represents'.costOf_add_sum_of_equations
    (represents.equations_direction column)
  rw [priced]
  refine Finset.sum_eq_zero fun row _ => ?_
  have still : other.mulVec (fun _ : Fin form.numRows => (0 : Rat)) row = 0 :=
    congrFun (Matrix.mulVec_zero other) row
  rw [still, zero_smul]

/-- A direction costs what the objective row has under its column, with the other sign. -/
theorem costOf_direction (column : Fin form.numColumns) :
    form.costOf (tableau.direction column) = -tableau.objectiveEntry column := by
  have priced := represents.costOf_direction_add_sum represents column
  rw [sum_direction_smul] at priced
  simp only [represents.objectiveEntry_basis, smul_zero, Finset.sum_const_zero, sub_zero] at priced
  exact eq_neg_of_add_eq_zero_left priced

end Represents

end Tableau

/-! ### Rays -/

namespace StandardForm

/-- A direction without artificial part that keeps the equations, lets no level fall, and
improves the objective. -/
structure ImprovingRay (form : StandardForm Rat) (ray : Fin form.numColumns → Rat) : Prop where
  nonneg : ∀ j, 0 ≤ ray j
  equations : ∀ i, ∑ j, form.a.get i j * ray j = 0
  noArtificial : form.NoArtificial ray
  improves : 0 < (form.costOf ray).value

variable {form : StandardForm Rat}

theorem costOf_add_smul (levels ray : Fin form.numColumns → Rat) (length : Rat) :
    form.costOf (levels + length • ray) = form.costOf levels + length • form.costOf ray := by
  unfold costOf
  rw [Finset.smul_sum, ← Finset.sum_add_distrib]
  refine Finset.sum_congr rfl fun j _ => ?_
  rw [Pi.add_apply, Pi.smul_apply, smul_eq_mul, add_smul, mul_smul]

/-- Levels that do not fall and cost a positive amount, with penalties first, have no artificial
part and a positive value. -/
theorem Canonical.improvingRay (canonical : form.Canonical) {ray : Fin form.numColumns → Rat}
    (nonneg : ∀ j, 0 ≤ ray j) (equations : ∀ i, ∑ j, form.a.get i j * ray j = 0)
    (positive : 0 < form.costOf ray) : form.ImprovingRay ray := by
  have noArtificial : form.NoArtificial ray := by
    intro column artificial
    refine le_antisymm (not_lt.1 fun present => ?_) (nonneg column)
    have penalized := canonical.penalty_costOf_neg nonneg artificial present
    exact absurd (BigM.penalty_le_of_le positive.le) (not_le.2 penalized)
  refine ⟨nonneg, equations, noArtificial, ?_⟩
  rcases BigM.lt_iff.1 positive with penalty | ⟨_, value⟩
  · rw [canonical.penalty_costOf_eq_zero noArtificial] at penalty
    exact absurd penalty (lt_irrefl _)
  · exact value

namespace ImprovingRay

variable {ray : Fin form.numColumns → Rat} (improving : form.ImprovingRay ray)

include improving

/-- A solution moved along a ray is a solution. -/
theorem solves {levels : Fin form.numColumns → Rat} (solves : form.Solves levels) {length : Rat}
    (forward : 0 ≤ length) : form.Solves (levels + length • ray) where
  nonneg j := add_nonneg (solves.nonneg j) (mul_nonneg forward (improving.nonneg j))
  equations i := by
    have moved : ∀ j, form.a.get i j * (levels + length • ray) j =
        form.a.get i j * levels j + length * (form.a.get i j * ray j) := fun j => by
      rw [Pi.add_apply, Pi.smul_apply, smul_eq_mul]
      ring
    simp only [moved, Finset.sum_add_distrib, ← Finset.mul_sum, solves.equations,
      improving.equations, mul_zero, add_zero]

theorem noArtificial_add {levels : Fin form.numColumns → Rat}
    (noArtificial : form.NoArtificial levels) (length : Rat) :
    form.NoArtificial (levels + length • ray) := by
  intro j artificial
  rw [Pi.add_apply, Pi.smul_apply, noArtificial j artificial, improving.noArtificial j artificial,
    smul_zero, add_zero]

end ImprovingRay

end StandardForm

/-- The feasible points have objectives beyond every bound in the author's sense. -/
def Problem.Unbounded (problem : Problem Rat) : Prop :=
  ∀ bound, ∃ point, problem.Feasible point ∧
    problem.sense.Better (problem.evaluate point) bound

/-- A ray leads from any feasible point beyond every bound. -/
theorem StandardForm.ImprovingRay.unbounded {problem : Problem Rat} {valid : problem.Valid}
    {ray : Fin (StandardForm.ofProblem problem valid).numColumns → Rat}
    (improving : (StandardForm.ofProblem problem valid).ImprovingRay ray) {point : List Rat}
    (feasible : problem.Feasible point) : problem.Unbounded := by
  intro bound
  have improves := improving.improves
  -- far enough that the gain outweighs the distance between the point and the bound
  have enough : ∃ length : Rat, 0 ≤ length ∧ problem.sense.orient bound <
      problem.sense.orient (problem.evaluate point) +
        length * ((StandardForm.ofProblem problem valid).costOf ray).value := by
    obtain ⟨count, above⟩ := exists_nat_gt ((problem.sense.orient bound -
      problem.sense.orient (problem.evaluate point)) /
        ((StandardForm.ofProblem problem valid).costOf ray).value)
    refine ⟨count, Nat.cast_nonneg count, ?_⟩
    rw [div_lt_iff₀ improves] at above
    exact sub_lt_iff_lt_add'.1 above
  obtain ⟨length, forward, beyond⟩ := enough
  have noArtificial := improving.noArtificial_add
    (noArtificial_levelsAt valid point feasible.length) length
  refine ⟨(StandardForm.ofProblem problem valid).pointOf
      (levelsAt valid point feasible.length + length • ray),
    feasible_pointOf valid (improving.solves (solves_levelsAt valid feasible) forward) noArtificial,
    ?_⟩
  have cost := congrArg BigM.value (costOf_eq_pointOf valid noArtificial)
  rw [costOf_add_smul, costOf_levelsAt, BigM.value_add, BigM.value_smul, BigM.value_ofScalar,
    BigM.value_ofScalar] at cost
  rw [Sense.better_iff, ← cost]
  exact beyond

/-! ### The end of a run -/

/-- An unbounded end shows a ray. -/
theorem Run.Exact.improvingRay {form : StandardForm Rat} (canonical : form.Canonical)
    {run : Run form} (exact : run.Exact) (ended : run.status = some .unbounded) :
    ∃ ray, form.ImprovingRay ray := by
  obtain ⟨inverse, represents⟩ := exact.represents
  have shown := exact.showsEnd
  rw [ended] at shown
  obtain ⟨column, negative, nonpos⟩ := shown
  refine ⟨run.tableau.direction column, canonical.improvingRay (Tableau.direction_nonneg nonpos)
    (represents.equations_direction column) ?_⟩
  rw [represents.costOf_direction]
  exact neg_pos.2 negative

/-- An artificial column is basic with a positive right-hand side in the last tableau. -/
def Solution.KeepsArtificial (solution : Solution Rat) : Prop :=
  ∃ row, solution.form.isArtificial (solution.finalStep.tableau.basis.get row) = true ∧
    0 < solution.finalStep.tableau.rhs row

/-- Where the last tableau keeps no artificial column at a positive level, it has a feasible
point. -/
theorem Run.Exact.feasible_of_not_keepsArtificial {problem : Problem Rat} {valid : problem.Valid}
    {run : Run (.ofProblem problem valid)} (exact : run.Exact)
    (settled : ¬ run.solution.KeepsArtificial) : problem.Feasible run.values := by
  obtain ⟨inverse, represents⟩ := exact.represents
  have noArtificial := exact.noArtificial
    (Bool.eq_false_iff.2 fun positive => settled ((hasPositiveArtificial_iff exact).1 positive))
  rw [values_eq_pointOf]
  exact StandardForm.feasible_pointOf valid (represents.solves_levelOf exact.rhs_nonneg)
    noArtificial

namespace Solver

/-- Without tolerance every valid problem is solved. When the solution is unbounded, so is the
problem, provided that it has a feasible point at all; and it has one when no artificial column
is left at a positive level. -/
theorem unbounded_iff_feasible (solver : Solver Rat) (exact : solver.tolerance = 0)
    (problem : Problem Rat) (valid : problem.Valid) :
    ∃ solution, solver.solve problem = .ok solution ∧
      (solution.status = .unbounded →
        (problem.Unbounded ↔ ∃ point, problem.Feasible point) ∧
          (¬ solution.KeepsArtificial → problem.Unbounded)) := by
  obtain ⟨run, solved, runExact, _⟩ := solver.solve_eq exact valid
  refine ⟨run.solution, solved, fun ended => ?_⟩
  obtain ⟨ray, improving⟩ := runExact.improvingRay (StandardForm.canonical_ofProblem valid)
    (Run.status_of_solution ended fun same => nomatch same)
  refine ⟨⟨fun unbounded => ?_, fun ⟨point, feasible⟩ => improving.unbounded feasible⟩,
    fun settled => improving.unbounded (runExact.feasible_of_not_keepsArtificial settled)⟩
  obtain ⟨point, feasible, _⟩ := unbounded 0
  exact ⟨point, feasible⟩

/-- A problem with an equation and nothing that limits its second variable. -/
def openProblem : Problem Rat :=
  ((Problem.withVariables 2).setObjective [1, 2] .maximize).constrain [1, -1] .equal 3

/-- The statement at a problem that is unbounded after its artificial column has left. -/
theorem unbounded_iff_feasible_openProblem :
    ({ tolerance := 0 } : Solver Rat).tolerance = 0 ∧ openProblem.Valid ∧
      ∃ solution, ({ tolerance := 0 } : Solver Rat).solve openProblem = .ok solution ∧
        solution.status = .unbounded ∧ openProblem.Feasible [3, 0] ∧ openProblem.Unbounded := by
  have valid : openProblem.Valid := Problem.fault?_eq_none_iff.1 (by decide +kernel)
  refine ⟨rfl, valid, ?_⟩
  obtain ⟨solution, solved, sound⟩ :=
    unbounded_iff_feasible { tolerance := 0 } rfl openProblem valid
  have ended : (({ tolerance := 0 } : Solver Rat).solve openProblem).map Solution.status =
      .ok .unbounded := by decide +kernel
  rw [solved] at ended
  have unbounded : solution.status = .unbounded := Except.ok.inj ended
  have feasible : openProblem.Feasible [3, 0] := by decide +kernel
  exact ⟨solution, solved, unbounded, feasible, (sound unbounded).1.2 ⟨[3, 0], feasible⟩⟩

/-- A run under either rule ends unbounded on a problem without feasible points: its second
variable has no ratios, and an artificial column is still basic with a positive level. -/
theorem unbounded_of_contradictoryProblem :
    (contradictoryProblem [0, 1]).Valid ∧
      (({ tolerance := 0 } : Solver Rat).solve (contradictoryProblem [0, 1])).map
          Solution.status = .ok .unbounded ∧
      (({ tolerance := 0, rule := .bland } : Solver Rat).solve (contradictoryProblem [0, 1])).map
          Solution.status = .ok .unbounded ∧
      ¬ (contradictoryProblem [0, 1]).Unbounded ∧
      ∀ point, ¬ (contradictoryProblem [0, 1]).Feasible point := by
  refine ⟨Problem.fault?_eq_none_iff.1 (by decide +kernel), by decide +kernel, by decide +kernel,
    fun unbounded => ?_, not_feasible_contradictoryProblem [0, 1]⟩
  obtain ⟨point, feasible, _⟩ := unbounded 0
  exact not_feasible_contradictoryProblem [0, 1] point feasible

end Solver

end LinearProgramming
