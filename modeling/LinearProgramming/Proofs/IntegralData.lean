/-
This file proves that a small tolerance decides nothing on integral data of moderate size.

By Cramer's rule the entries and right-hand sides of a tableau that stands for its basis are whole
numbers divided by the determinant of the basis, and the determinant times an entry is again the
determinant of a basis. Where these determinants are bounded, a number of the tableau that is not
zero is not small, and two ratios that differ do so by more than a little. So with a tolerance
below these distances no pivot skips a row and no tie-break is wrong, and an optimum satisfies
every constraint exactly.
-/

import Mathlib
import LinearProgramming.Proofs.ToleranceRun

namespace LinearProgramming

/-! ### Whole numbers and determinants -/

/-- The number is a whole number. -/
def IsWhole (number : Rat) : Prop := ∃ whole : Int, number = whole

instance (number : Rat) : Decidable (IsWhole number) :=
  decidable_of_iff (number.den = 1)
    ⟨fun one => ⟨number.num, (Rat.coe_int_num_of_den_eq_one one).symm⟩, fun ⟨_, same⟩ => same ▸ rfl⟩

namespace IsWhole

variable {left right : Rat}

theorem mul (first : IsWhole left) (second : IsWhole right) : IsWhole (left * right) := by
  obtain ⟨whole, rfl⟩ := first
  obtain ⟨other, rfl⟩ := second
  exact ⟨whole * other, (Int.cast_mul whole other).symm⟩

theorem sub (first : IsWhole left) (second : IsWhole right) : IsWhole (left - right) := by
  obtain ⟨whole, rfl⟩ := first
  obtain ⟨other, rfl⟩ := second
  exact ⟨whole - other, (Int.cast_sub whole other).symm⟩

/-- A whole number of absolute value below one is zero. -/
theorem eq_zero {number : Rat} (whole : IsWhole number) (small : |number| < 1) : number = 0 := by
  obtain ⟨whole, rfl⟩ := whole
  have inside : |whole| < 1 := by exact_mod_cast small
  rw [Int.abs_lt_one_iff.1 inside, Int.cast_zero]

theorem det {m : Nat} {matrix : Matrix (Fin m) (Fin m) Rat} (whole : ∀ i j, IsWhole (matrix i j)) :
    IsWhole matrix.det := by
  choose entries same using whole
  have lifted : matrix = (Matrix.of entries).map fun entry : Int => (entry : Rat) := by
    ext i j
    exact same i j
  exact ⟨(Matrix.of entries).det, by rw [lifted, Int.cast_det]⟩

end IsWhole

/-- Cramer's rule: the determinant times an entry of the inverse times a matrix is the determinant
with one column exchanged. -/
theorem det_mul_apply {m k : Nat} {inverse matrix : Matrix (Fin m) (Fin m) Rat}
    (inverts : inverse * matrix = 1) (right : Matrix (Fin m) (Fin k) Rat) (row : Fin m)
    (j : Fin k) :
    matrix.det * (inverse * right) row j = (matrix.updateCol row fun i => right i j).det := by
  have adjugate : matrix.adjugate = matrix.det • inverse := by
    calc matrix.adjugate
        = matrix.adjugate * (matrix * inverse) := by
          rw [mul_eq_one_comm.1 inverts, mul_one]
      _ = matrix.det • inverse := by
          rw [← mul_assoc, Matrix.adjugate_mul, smul_mul_assoc, one_mul]
  rw [← Matrix.cramer_apply, Matrix.cramer_eq_adjugate_mulVec, adjugate, Matrix.smul_mulVec]
  rfl

/-! ### Tableaux of integral forms -/

/-- The equations of the form are integral, and no determinant of a basis is above a bound. -/
structure StandardForm.IsIntegral (form : StandardForm Rat) (bound : Rat) : Prop where
  whole : ∀ i j, IsWhole (form.augmented i j)
  det_le : ∀ basis, |(form.basisOf basis).det| ≤ bound

theorem updateCol_basisOf (form : StandardForm Rat)
    (basis : Vector (Fin form.numColumns) form.numRows) (row : Fin form.numRows)
    (column : Fin form.numColumns) :
    (form.basisOf basis).updateCol row (fun i => form.augmented i column.castSucc) =
      form.basisOf (replaceEntry basis row column) := by
  simp only [StandardForm.augmented_castSucc]
  exact updateCol_basisMatrix form.a.toMatrix basis row column

namespace Tableau.Represents

variable {form : StandardForm Rat}
  {inverse : Matrix (Fin form.numRows) (Fin form.numRows) Rat}
  {tableau : Tableau Rat form.numRows form.numColumns} {bound tolerance : Rat}
  (represents : Represents form inverse tableau) (integral : form.IsIntegral bound)

include represents

theorem det_ne_zero : (form.basisOf tableau.basis).det ≠ 0 :=
  Matrix.det_ne_zero_of_left_inverse represents.inverts

include integral

/-- The determinant times a number of a constraint row is a whole number. -/
theorem isWhole_det_mul (row : Fin form.numRows) (j : Fin (form.numColumns + 1)) :
    IsWhole ((form.basisOf tableau.basis).det * (inverse * form.augmented) row j) := by
  rw [det_mul_apply represents.inverts]
  refine IsWhole.det fun i position => ?_
  rw [Matrix.updateCol_apply]
  split
  · exact integral.whole i j
  · have entry := integral.whole i (tableau.basis.get position).castSucc
    rwa [StandardForm.augmented_castSucc] at entry

theorem isWhole_det_mul_entry (row : Fin form.numRows) (column : Fin form.numColumns) :
    IsWhole ((form.basisOf tableau.basis).det * tableau.entry row column) := by
  have whole := represents.isWhole_det_mul integral row column.castSucc
  rwa [mul_augmented_castSucc, ← represents.entry_eq] at whole

theorem isWhole_det_mul_rhs (row : Fin form.numRows) :
    IsWhole ((form.basisOf tableau.basis).det * tableau.rhs row) := by
  have whole := represents.isWhole_det_mul integral row (Fin.last _)
  rwa [mul_augmented_last, ← represents.rhs_eq] at whole

/-- The determinant times an entry is the determinant of the basis after an exchange. -/
theorem abs_det_mul_entry_le (row : Fin form.numRows) (column : Fin form.numColumns) :
    |(form.basisOf tableau.basis).det * tableau.entry row column| ≤ bound := by
  have exchanged := det_mul_apply represents.inverts form.augmented row column.castSucc
  rw [updateCol_basisOf, mul_augmented_castSucc, ← represents.entry_eq] at exchanged
  rw [exchanged]
  exact integral.det_le _

/-- A small number that the determinant makes whole is zero. -/
theorem eq_zero_of_small {number : Rat} (below : bound * tolerance < 1)
    (whole : IsWhole ((form.basisOf tableau.basis).det * number)) (small : |number| ≤ tolerance) :
    number = 0 := by
  have product : |(form.basisOf tableau.basis).det * number| < 1 := by
    rw [abs_mul]
    refine lt_of_le_of_lt ?_ below
    exact mul_le_mul (integral.det_le _) small (abs_nonneg _)
      ((abs_nonneg _).trans (integral.det_le tableau.basis))
  exact (mul_eq_zero.1 (whole.eq_zero product)).resolve_left represents.det_ne_zero

theorem isClear (below : bound * tolerance < 1) (column : Fin form.numColumns) :
    tableau.IsClear tolerance column := fun row small =>
  represents.eq_zero_of_small integral below (represents.isWhole_det_mul_entry integral row column)
    small

/-- Two ratios of a column that are near to each other are equal. -/
theorem ratio_eq_of_near (below : bound ^ 2 * tolerance < 1) {column : Fin form.numColumns}
    {first second : Fin form.numRows} (firstPositive : 0 < tableau.entry first column)
    (secondPositive : 0 < tableau.entry second column)
    (near : |tableau.rhs first / tableau.entry first column -
      tableau.rhs second / tableau.entry second column| ≤ tolerance) :
    tableau.rhs first / tableau.entry first column =
      tableau.rhs second / tableau.entry second column := by
  set det := (form.basisOf tableau.basis).det with detDefinition
  have detNe : det ≠ 0 := represents.det_ne_zero
  -- the difference times both minors is a whole number
  have cleared : (tableau.rhs first / tableau.entry first column -
      tableau.rhs second / tableau.entry second column) *
        ((det * tableau.entry first column) * (det * tableau.entry second column)) =
      (det * tableau.rhs first) * (det * tableau.entry second column) -
        (det * tableau.rhs second) * (det * tableau.entry first column) := by
    field_simp
  have whole : IsWhole ((det * tableau.rhs first) * (det * tableau.entry second column) -
      (det * tableau.rhs second) * (det * tableau.entry first column)) :=
    ((represents.isWhole_det_mul_rhs integral first).mul
      (represents.isWhole_det_mul_entry integral second column)).sub
      ((represents.isWhole_det_mul_rhs integral second).mul
        (represents.isWhole_det_mul_entry integral first column))
  have minors : |(det * tableau.entry first column) * (det * tableau.entry second column)| ≤
      bound ^ 2 := by
    rw [abs_mul, pow_two]
    exact mul_le_mul (represents.abs_det_mul_entry_le integral first column)
      (represents.abs_det_mul_entry_le integral second column) (abs_nonneg _)
      ((abs_nonneg _).trans (integral.det_le tableau.basis))
  rw [← cleared] at whole
  have product := whole.eq_zero (by
    rw [abs_mul, mul_comm]
    exact (mul_le_mul minors near (abs_nonneg _) (sq_nonneg bound)).trans_lt below)
  refine sub_eq_zero.1 ((mul_eq_zero.1 product).resolve_right ?_)
  exact mul_ne_zero (mul_ne_zero detNe firstPositive.ne') (mul_ne_zero detNe secondPositive.ne')

end Tableau.Represents

/-! ### Runs on integral forms -/

namespace Tableau.HasExactRows

variable {form : StandardForm Rat} {tableau : Tableau Rat form.numRows form.numColumns}
  {bound tolerance : Rat} (exact : tableau.HasExactRows form) (integral : form.IsIntegral bound)

include exact integral

theorem isClear (below : bound * tolerance < 1) (column : Fin form.numColumns) :
    tableau.IsClear tolerance column := by
  obtain ⟨ideal, inverse, represents, _, same⟩ := exact
  intro row small
  rw [← same.entry] at small ⊢
  exact represents.isClear integral below column row small

theorem rhs_eq_zero (below : bound * tolerance < 1) {row : Fin form.numRows}
    (small : |tableau.rhs row| ≤ tolerance) : tableau.rhs row = 0 := by
  obtain ⟨ideal, inverse, represents, _, same⟩ := exact
  rw [← same.rhs] at small ⊢
  exact represents.eq_zero_of_small integral below (represents.isWhole_det_mul_rhs integral row)
    small

theorem ratios_apart (below : bound ^ 2 * tolerance < 1) (column : Fin form.numColumns) :
    PivotRule.Apart tolerance (tableau.ratios 0 column) := by
  intro first second ratio other present otherPresent near
  obtain ⟨ideal, inverse, represents, _, same⟩ := exact
  obtain ⟨positive, rfl⟩ := ratio_of_get_ratios present
  obtain ⟨otherPositive, rfl⟩ := ratio_of_get_ratios otherPresent
  simp only [← same.entry, ← same.rhs] at positive otherPositive near ⊢
  exact represents.ratio_eq_of_near integral below positive otherPositive near

end Tableau.HasExactRows

/-- The tolerance is too small to decide anything where determinants are within a bound. -/
structure Solver.IsFine (solver : Solver Rat) (bound : Rat) : Prop where
  nonneg : 0 ≤ solver.tolerance
  entries : bound * solver.tolerance < 1
  ratios : bound ^ 2 * solver.tolerance < 1

namespace Run

variable {form : StandardForm Rat} {run : Run form} {bound : Rat}

/-- What a run on an integral form keeps with a fine tolerance: it is tracked, the tolerance has
decided nothing, and no pivot is chosen on the last step. -/
structure Steady (run : Run form) : Prop where
  tracked : run.Tracked
  undisturbed : run.solver.Undisturbed run.earlierSteps.toList
  unmarked : run.lastStep.pivot = none

/-- The last step of a steady run can be added to the others. -/
theorem Steady.undisturbed_steps (steady : run.Steady) : run.solver.Undisturbed run.steps := by
  refine Solver.undisturbed_snoc_iff.2 ⟨steady.undisturbed, ?_, fun _ => ?_⟩
  · intro choice impossible
    rw [steady.unmarked] at impossible
    cases impossible
  · intro choice impossible
    rw [steady.unmarked] at impossible
    cases impossible

/-- In one step the tolerance decides nothing. -/
theorem Steady.step_undisturbed (integral : form.IsIntegral bound) (fine : run.solver.IsFine bound)
    (steady : run.Steady) :
    run.step.2.solver.Undisturbed run.step.2.earlierSteps.toList ∧
      run.step.2.lastStep.pivot = none := by
  have made := run.stepOf_step
  generalize run.step = result at made ⊢
  cases made with
  | idle status ended => exact ⟨steady.undisturbed, steady.unmarked⟩
  | settled running stopped => exact ⟨steady.undisturbed, steady.unmarked⟩
  | capped column running entered cap => exact ⟨steady.undisturbed, steady.unmarked⟩
  | unbounded column running entered below stuck =>
    refine ⟨?_, rfl⟩
    change run.solver.Undisturbed (run.earlierSteps.push _).toList
    rw [Array.toList_push]
    exact steady.undisturbed_steps
  | pivoted column row running entered below left =>
    have rows := steady.tracked.rows
    have clear := rows.isClear integral fine.entries column
    have ratios : run.ratiosOf column = run.tableau.ratios 0 column :=
      clear.ratios_eq fine.nonneg
    have exactly : run.leaving? column = run.solver.rule.leaving 0 run.tableau.basis
        (run.ratiosOf column) :=
      PivotRule.leaving_eq fine.nonneg _ fun _ =>
        ratios ▸ rows.ratios_apart integral fine.ratios column
    obtain ⟨least, present, smallest⟩ :=
      PivotRule.least_of_leaving_eq_some (exactly.symm.trans left)
    refine ⟨?_, rfl⟩
    change run.solver.Undisturbed (run.earlierSteps.push _).toList
    rw [Array.toList_push, Solver.undisturbed_snoc_iff]
    refine ⟨steady.undisturbed, ?_, fun _ => ?_⟩
    · rintro choice ⟨rfl⟩
      exact clear
    · rintro choice ⟨rfl⟩ ratio held other otherRatio otherHeld
      obtain rfl : least = ratio := Option.some.inj (present.symm.trans held)
      exact smallest other otherRatio otherHeld

theorem Steady.step (integral : form.IsIntegral bound) (fine : run.solver.IsFine bound)
    (steady : run.Steady) : run.step.2.Steady := by
  obtain ⟨undisturbed, unmarked⟩ := steady.step_undisturbed integral fine
  exact ⟨Tracked.step fine.nonneg (fun _ => steady.tracked) undisturbed, undisturbed, unmarked⟩

theorem Steady.afterSteps (integral : form.IsIntegral bound) (fine : run.solver.IsFine bound)
    (steady : run.Steady) (count : Nat) : (run.afterSteps count).Steady :=
  (afterSteps_induction (fun later : Run form => later.solver.IsFine bound ∧ later.Steady)
    (fun later kept => ⟨(step_solver later).symm ▸ kept.1, kept.2.step integral kept.1⟩) count
    ⟨fine, steady⟩).2

theorem initial_steady (canonical : form.Canonical) (solver : Solver Rat) (sense : Sense) :
    (initial solver sense form).Steady where
  tracked := initial_tracked canonical solver sense
  undisturbed :=
    { clear := fun _ impossible => absurd impossible List.not_mem_nil
      least := fun _ _ impossible => absurd impossible List.not_mem_nil }
  unmarked := rfl

/-- At an optimal end of a steady run no artificial unknown has a level. -/
theorem Steady.noArtificial (integral : form.IsIntegral bound) (fine : run.solver.IsFine bound)
    (steady : run.Steady) (ended : run.status = some .optimal) :
    form.NoArtificial run.tableau.levelOf := by
  intro j artificial
  have small := steady.tracked.artificial_le fine.nonneg ended j artificial
  have nonneg := steady.tracked.solves.nonneg j
  by_cases basic : j ∈ Set.range run.tableau.basis.get
  · obtain ⟨row, rfl⟩ := basic
    rw [Tableau.levelOf_basis steady.tracked.rows.basis_injective] at small nonneg ⊢
    exact steady.tracked.rows.rhs_eq_zero integral fine.entries
      ((abs_of_nonneg nonneg).trans_le small)
  · exact Tableau.levelOf_of_not_basic basic

end Run

/-! ### Integral problems -/

/-- The coefficients of the constraints are whole numbers up to a given size, and the right-hand
sides are whole numbers. -/
structure Problem.IsIntegral (problem : Problem Rat) (size : Rat) : Prop where
  one_le : 1 ≤ size
  coefficients : ∀ constraint ∈ problem.constraints, ∀ number ∈ constraint.coefficients,
    IsWhole number ∧ |number| ≤ size
  rhs : ∀ constraint ∈ problem.constraints, IsWhole constraint.rhs

instance (problem : Problem Rat) (size : Rat) : Decidable (problem.IsIntegral size) :=
  decidable_of_iff (1 ≤ size ∧ (∀ constraint ∈ problem.constraints,
      (∀ number ∈ constraint.coefficients, IsWhole number ∧ |number| ≤ size) ∧
        IsWhole constraint.rhs))
    ⟨fun ⟨large, rows⟩ => ⟨large, fun row member => (rows row member).1,
        fun row member => (rows row member).2⟩,
      fun integral => ⟨integral.one_le, fun row member =>
        ⟨integral.coefficients row member, integral.rhs row member⟩⟩⟩

/-- What the determinant of a matrix of a number of rows can be when its entries are up to a given
size. -/
def determinantBound (rows : Nat) (size : Rat) : Rat := rows.factorial * size ^ rows

theorem Problem.rowSign_isWhole (problem : Problem Rat) (i : Fin problem.numRows) :
    IsWhole (problem.rowSign i) ∧ |problem.rowSign i| = 1 := by
  rcases problem.rowSign_cases i with ⟨_, sign, _⟩ | ⟨_, sign, _⟩
  · rw [sign]
    exact ⟨⟨-1, by norm_num⟩, by norm_num⟩
  · rw [sign]
    exact ⟨⟨1, by norm_num⟩, abs_one⟩

namespace Problem.IsIntegral

variable {problem : Problem Rat} {size : Rat} (integral : problem.IsIntegral size)

include integral

/-- The entries of the equations are whole numbers up to the size. -/
theorem entry (valid : problem.Valid) (i : Fin problem.numRows)
    (column : Column problem.numVars problem.numRows) :
    IsWhole (problem.entry valid i column) ∧ |problem.entry valid i column| ≤ size := by
  have zero : IsWhole 0 ∧ |(0 : Rat)| ≤ size :=
    ⟨⟨0, Int.cast_zero.symm⟩, abs_zero.trans_le (zero_le_one.trans integral.one_le)⟩
  have one : IsWhole 1 ∧ |(1 : Rat)| ≤ size :=
    ⟨⟨1, Int.cast_one.symm⟩, abs_one.trans_le integral.one_le⟩
  have minusOne : IsWhole (-1) ∧ |(-1 : Rat)| ≤ size :=
    ⟨⟨-1, by norm_num⟩, (abs_neg 1).trans_le one.2⟩
  cases column with
  | decision j =>
    obtain ⟨signWhole, signSize⟩ := problem.rowSign_isWhole i
    obtain ⟨whole, small⟩ := integral.coefficients _ (List.get_mem _ i) _
      (List.get_mem (problem.row i).coefficients
        (j.cast (valid.constraints_fit _ (List.get_mem _ i)).length.symm))
    refine ⟨signWhole.mul whole, ?_⟩
    show |problem.rowSign i * problem.coefficient valid i j| ≤ size
    rw [abs_mul, signSize, one_mul]
    exact small
  | slack k =>
    show IsWhole (if k = i then 1 else 0) ∧ |if k = i then 1 else (0 : Rat)| ≤ size
    split
    · exact one
    · exact zero
  | surplus k =>
    show IsWhole (if k = i then -1 else 0) ∧ |if k = i then -1 else (0 : Rat)| ≤ size
    split
    · exact minusOne
    · exact zero
  | artificial k =>
    show IsWhole (if k = i then 1 else 0) ∧ |if k = i then 1 else (0 : Rat)| ≤ size
    split
    · exact one
    · exact zero

/-- The standard form is integral, with determinants within the bound for its size. -/
theorem ofProblem (valid : problem.Valid) :
    (StandardForm.ofProblem problem valid).IsIntegral
      (determinantBound problem.numRows size) where
  whole i j := by
    refine Fin.lastCases ?_ (fun column => ?_) j
    · obtain ⟨whole, same⟩ := (problem.rowSign_isWhole i).1.mul
        (integral.rhs (problem.row i) (List.get_mem _ i))
      rw [StandardForm.augmented_last]
      exact ⟨whole, (StandardForm.ofProblem_b valid i).trans same⟩
    · obtain ⟨whole, same⟩ := (integral.entry valid i (problem.columnVector.get column)).1
      rw [StandardForm.augmented_castSucc]
      exact ⟨whole, (StandardForm.ofProblem_a valid i column).trans same⟩
  det_le basis := by
    have entries : ∀ i position, AbsoluteValue.abs
        ((StandardForm.ofProblem problem valid).basisOf basis i position) ≤ size := by
      intro i position
      have entry := (integral.entry valid i (problem.columnVector.get (basis.get position))).2
      exact (congrArg abs (StandardForm.ofProblem_a valid i _)).trans_le entry
    have bounded := Matrix.det_le entries
    rw [Fintype.card_fin, nsmul_eq_mul] at bounded
    exact bounded

end Problem.IsIntegral

theorem one_le_determinantBound (rows : Nat) {size : Rat} (large : 1 ≤ size) :
    1 ≤ determinantBound rows size :=
  one_le_mul_of_one_le_of_one_le (by exact_mod_cast rows.factorial_pos)
    (one_le_pow₀ large)

/-- Optima of integral problems. When the data of a valid problem are whole numbers and the square
of the bound on its determinants times the tolerance is below one, the tolerance decides nothing
in a run, and the values of an optimal solution are a feasible point. -/
theorem Solver.optimal_feasible_of_isIntegral (solver : Solver Rat)
    (nonneg : 0 ≤ solver.tolerance) (problem : Problem Rat) (valid : problem.Valid) {size : Rat}
    (integral : problem.IsIntegral size)
    (small : determinantBound problem.numRows size ^ 2 * solver.tolerance < 1) :
    ∃ solution, solver.solve problem = .ok solution ∧ solver.Undisturbed solution.steps ∧
      (solution.status = .optimal → problem.Feasible solution.outcome.values) := by
  have large := one_le_determinantBound problem.numRows integral.one_le
  have fine : solver.IsFine (determinantBound problem.numRows size) :=
    { nonneg := nonneg
      entries := (mul_le_mul_of_nonneg_right (le_self_pow₀ large two_ne_zero) nonneg).trans_lt small
      ratios := small }
  have canonical := StandardForm.canonical_ofProblem valid
  have form := integral.ofProblem valid
  have steady := (Run.initial_steady canonical solver problem.sense).afterSteps form fine
    (solver.maxIterations + 1)
  refine ⟨_, solver.solve_eq_afterSteps valid, ?_, fun ended => ?_⟩
  · have undisturbed := steady.undisturbed_steps
    rwa [Run.afterSteps_solver] at undisturbed
  · have optimal := Run.status_of_solution ended fun same => nomatch same
    rw [Run.values_of_optimal optimal, Run.values_eq_pointOf]
    refine StandardForm.feasible_pointOf valid steady.tracked.solves
      (steady.noArtificial form ?_ optimal)
    rwa [Run.afterSteps_solver]

/-- With three rows and entries up to three the default tolerance is small enough. -/
example : mixedProblem.IsIntegral 3 ∧
    determinantBound mixedProblem.numRows 3 ^ 2 * Scalar.epsilon < 1 := by
  decide +kernel

end LinearProgramming
