/-
This file says what a simplex tableau stands for and that pivots keep it so.

A tableau belongs to a basis. With the inverse of the basis matrix, its constraint rows are the
inverse times the equations of the standard form, and its objective row is the basic costs times
these rows less the costs. The initial tableau stands for the identity, and a pivot applies the
exchange operation to every row at once, whatever cells it overwrites and whatever rows it skips.
-/

import Mathlib
import LinearProgramming.Proofs.PivotChoice
import LinearProgramming.Proofs.StandardForm.Equations
import LinearProgramming.Tableau.Pivot

namespace LinearProgramming

theorem get_push_castSucc {β : Type} {n : Nat} (vector : Vector β n) (last : β) (i : Fin n) :
    (vector.push last).get i.castSucc = vector.get i :=
  Vector.getElem_push_lt i.isLt

theorem get_push_last {β : Type} {n : Nat} (vector : Vector β n) (last : β) :
    (vector.push last).get (Fin.last n) = last :=
  Vector.getElem_push_eq

namespace Tableau

variable {form : StandardForm Rat}
  {inverse : Matrix (Fin form.numRows) (Fin form.numRows) Rat}
  {tableau : Tableau Rat form.numRows form.numColumns}

/-- A tableau of a form stands for its basis: the given matrix inverts the basis matrix, the
constraint rows are its product with the equations, and the objective row is what the basic costs
make of these rows, less the costs. -/
structure Represents (form : StandardForm Rat)
    (inverse : Matrix (Fin form.numRows) (Fin form.numRows) Rat)
    (tableau : Tableau Rat form.numRows form.numColumns) : Prop where
  inverts : inverse * form.basisOf tableau.basis = 1
  rows : ∀ row j, tableau.cells.get row.succ j = .ofScalar ((inverse * form.augmented) row j)
  objectiveRow : ∀ j, tableau.cells.get 0 j =
    ∑ row, (inverse * form.augmented) row j • form.costs.get (tableau.basis.get row) -
      form.augmentedCosts j

/-! ### Reading a tableau that stands for its basis -/

theorem mul_augmented_castSucc (row : Fin form.numRows) (j : Fin form.numColumns) :
    (inverse * form.augmented) row j.castSucc = (inverse * form.a.toMatrix) row j := by
  simp [Matrix.mul_apply]

theorem mul_augmented_last (row : Fin form.numRows) :
    (inverse * form.augmented) row (Fin.last form.numColumns) =
      (inverse.mulVec form.b.get) row := by
  simp [Matrix.mul_apply, Matrix.mulVec, dotProduct]

namespace Represents

variable (represents : Represents form inverse tableau)

include represents

theorem entry_eq (row : Fin form.numRows) (j : Fin form.numColumns) :
    tableau.entry row j = (inverse * form.a.toMatrix) row j := by
  rw [entry, represents.rows, BigM.value_ofScalar, mul_augmented_castSucc]

theorem rhs_eq (row : Fin form.numRows) :
    tableau.rhs row = (inverse.mulVec form.b.get) row := by
  rw [rhs, represents.rows, BigM.value_ofScalar, mul_augmented_last]

theorem objectiveEntry_eq (j : Fin form.numColumns) :
    tableau.objectiveEntry j =
      ∑ row, tableau.entry row j • form.costs.get (tableau.basis.get row) -
        form.costs.get j := by
  rw [objectiveEntry, represents.objectiveRow, StandardForm.augmentedCosts_castSucc]
  simp only [mul_augmented_castSucc, represents.entry_eq]

theorem objective_eq :
    tableau.objective =
      ∑ row, tableau.rhs row • form.costs.get (tableau.basis.get row) := by
  rw [objective, represents.objectiveRow, StandardForm.augmentedCosts_last, sub_zero]
  simp only [mul_augmented_last, represents.rhs_eq]

/-- The basic columns form the identity. -/
theorem entry_basis (row position : Fin form.numRows) :
    tableau.entry row (tableau.basis.get position) = if row = position then 1 else 0 := by
  rw [represents.entry_eq, ← mul_basisMatrix_apply, ← Matrix.one_apply, ← represents.inverts]
  rfl

theorem basis_injective : Function.Injective tableau.basis.get :=
  injective_of_inverts represents.inverts

/-- The objective row is zero under the basic columns. -/
theorem objectiveEntry_basis (position : Fin form.numRows) :
    tableau.objectiveEntry (tableau.basis.get position) = 0 := by
  rw [represents.objectiveEntry_eq]
  simp only [represents.entry_basis, ite_smul, one_smul, zero_smul, Finset.sum_ite_eq',
    Finset.mem_univ, if_true, sub_self]

/-- The columns of the first basis hold the inverse. -/
theorem entry_initialBasis (canonical : form.Canonical) (row position : Fin form.numRows) :
    tableau.entry row (form.initialBasis.get position) = inverse row position := by
  rw [represents.entry_eq, ← mul_basisMatrix_apply]
  refine congrFun (congrFun ?_ row) position
  rw [show basisMatrix form.a.toMatrix form.initialBasis = 1 from canonical.basisOf_initialBasis,
    mul_one]

/-- The inverse is that of linear algebra. -/
theorem basisOf_inverse : (form.basisOf tableau.basis)⁻¹ = inverse :=
  Matrix.inv_eq_left_inv represents.inverts

theorem basisOf_isUnit : IsUnit (form.basisOf tableau.basis) :=
  (Matrix.isUnit_iff_isUnit_det _).2 (Matrix.isUnit_det_of_left_inverse represents.inverts)

end Represents

/-! ### The start -/

theorem get_equation (row : Fin form.numRows) (j : Fin (form.numColumns + 1)) :
    (equation form row).get j = form.augmented row j := by
  refine Fin.lastCases ?_ (fun column => ?_) j
  · rw [equation, get_push_last, StandardForm.augmented_last]
  · rw [equation, get_push_castSucc, StandardForm.augmented_castSucc]
    rfl

theorem get_negatedCosts (j : Fin (form.numColumns + 1)) :
    (negatedCosts form).get j = -form.augmentedCosts j := by
  refine Fin.lastCases ?_ (fun column => ?_) j
  · rw [negatedCosts, get_push_last, StandardForm.augmentedCosts_last, neg_zero]
  · rw [negatedCosts, get_push_castSucc, get_vectorMap, StandardForm.augmentedCosts_castSucc]

/-- Adding rows to an objective row, each times the cost of the column that starts in it. A cost
that counts as zero is zero, so the rows that are passed over add nothing. -/
theorem get_foldl_startingRows (canonical : form.Canonical) (rows : List (Fin form.numRows))
    (objectiveRow : Vector (BigM Rat) (form.numColumns + 1)) (j : Fin (form.numColumns + 1)) :
    (rows.foldl (fun objective row =>
      let cost := form.costs.get (form.initialBasis.get row)
      if cost.isZero then objective
      else Vector.zipWith (fun entry coefficient => entry + cost.scale coefficient) objective
        (equation form row)) objectiveRow).get j =
      objectiveRow.get j + (rows.map fun row =>
        form.augmented row j • form.costs.get (form.initialBasis.get row)).sum := by
  induction rows generalizing objectiveRow with
  | nil => exact (add_zero _).symm
  | cons row rest inductionHypothesis =>
    rw [List.foldl_cons, inductionHypothesis, List.map_cons, List.sum_cons, ← add_assoc]
    refine congrArg (· + _) ?_
    rcases canonical.start_cost row with zero | penalty
    · have skipped : (0 : BigM Rat).isZero = true := by decide +kernel
      simp only [zero, skipped, if_true, smul_zero, add_zero]
    · have kept : (-BigM.penaltyUnit : BigM Rat).isZero = false := by decide +kernel
      simp only [penalty, kept, Bool.false_eq_true, if_false]
      refine (Vector.getElem_zipWith j.isLt).trans ?_
      exact congrArg (fun coefficient => objectiveRow.get j +
        coefficient • (-BigM.penaltyUnit : BigM Rat)) (get_equation row j)

theorem get_startingObjective (canonical : form.Canonical) (j : Fin (form.numColumns + 1)) :
    (startingObjective form).get j =
      ∑ row, form.augmented row j • form.costs.get (form.initialBasis.get row) -
        form.augmentedCosts j := by
  rw [startingObjective, get_foldl_startingRows canonical, get_negatedCosts, ← Fin.sum_univ_def,
    neg_add_eq_sub]

/-- The initial tableau stands for the identity. -/
theorem initial_represents (canonical : form.Canonical) :
    Represents form 1 (initial form) where
  inverts := by
    rw [one_mul]
    exact canonical.basisOf_initialBasis
  rows row j := by
    rw [Matrix.one_mul, initial, DenseMatrix.get_ofFn]
    show BigM.ofScalar (((Vector.ofFn (equation form)).get row).get j) = _
    rw [get_vectorOfFn, get_equation]
  objectiveRow j := by
    rw [Matrix.one_mul, initial, DenseMatrix.get_ofFn]
    exact get_startingObjective canonical j

theorem initial_rhs_nonneg (canonical : form.Canonical) (row : Fin form.numRows) :
    0 ≤ (initial form).rhs row := by
  rw [(initial_represents canonical).rhs_eq, Matrix.one_mulVec]
  exact canonical.rhs_nonneg row

/-! ### Pivots -/

namespace Represents

variable (represents : Represents form inverse tableau) {row : Fin form.numRows}
  {column : Fin form.numColumns} (pivotNonzero : tableau.entry row column ≠ 0)

include represents pivotNonzero

/-- The pivot row divided by the pivot, also at the place that is set to one. -/
theorem get_pivotRow (j : Fin (form.numColumns + 1)) :
    (tableau.pivotRow row column).get j =
      .ofScalar ((inverse * form.augmented) row j / tableau.entry row column) := by
  rw [pivotRow, get_vectorOfFn]
  split
  · rename_i same
    rw [same, mul_augmented_castSucc, ← represents.entry_eq, div_self pivotNonzero]
  · rw [represents.rows]
    exact BigM.ext_parts rfl (zero_div _)

/-- Every other row loses a multiple of the pivot row, also at the cells that are set to zero and
in the rows that are left as they are. -/
theorem get_pivot_of_ne {i : Fin (form.numRows + 1)} (other : i ≠ row.succ)
    (j : Fin (form.numColumns + 1)) :
    (tableau.pivot 0 row column).cells.get i j =
      tableau.cells.get i j -
        ((inverse * form.augmented) row j / tableau.entry row column) •
          tableau.cells.get i column.castSucc := by
  have cell : (tableau.pivot 0 row column).cells.get i j =
      if (tableau.cells.get i column.castSucc).isZeroWithin 0 then tableau.cells.get i j
      else if j = column.castSucc then 0
      else tableau.cells.get i j - (tableau.cells.get i column.castSucc).scale
        ((tableau.pivotRow row column).get j).value :=
    (DenseMatrix.get_ofFn _ i j).trans (if_neg other)
  rw [cell]
  split
  · rename_i zero
    rw [(BigM.isZeroWithin_zero_iff _).1 zero, smul_zero, sub_zero]
  · split
    · rename_i same
      rw [same, mul_augmented_castSucc, ← represents.entry_eq, div_self pivotNonzero, one_smul,
        sub_self]
    · rw [represents.get_pivotRow pivotNonzero]
      rfl

/-- A pivot applies the exchange operation, and the new tableau stands for the new basis. -/
theorem pivot :
    Represents form (exchangeRows (fun i => tableau.entry i column) row inverse)
      (tableau.pivot 0 row column) where
  inverts := by
    have exchanged := exchangeRows_inverts represents.inverts column row
      (by rw [← represents.entry_eq]; exact pivotNonzero)
    simp only [← represents.entry_eq] at exchanged
    exact exchanged
  rows i j := by
    rw [exchangeRows_mul]
    by_cases same : i = row
    · subst same
      rw [exchangeRows_apply_self, ← represents.get_pivotRow pivotNonzero]
      exact (DenseMatrix.get_ofFn _ _ _).trans (if_pos rfl)
    · rw [exchangeRows_apply_of_ne _ same,
        represents.get_pivot_of_ne pivotNonzero fun equal => same (Fin.succ_injective _ equal),
        represents.rows, represents.rows, mul_augmented_castSucc, ← represents.entry_eq]
      refine BigM.ext_parts ?_ ?_
      · simp only [BigM.value_sub, BigM.value_smul, BigM.value_ofScalar]
        ring
      · simp
  objectiveRow j := by
    have basicCosts : ∀ i, form.costs.get ((tableau.pivot 0 row column).basis.get i) =
        if i = row then form.costs.get column
        else form.costs.get (tableau.basis.get i) := by
      intro i
      show form.costs.get ((replaceEntry tableau.basis row column).get i) = _
      rw [get_replaceEntry]
      split <;> rfl
    have entering := represents.objectiveEntry_eq column
    rw [represents.get_pivot_of_ne pivotNonzero (Fin.succ_ne_zero row).symm,
      represents.objectiveRow, exchangeRows_mul]
    simp only [basicCosts]
    rw [sum_exchangeRows_smul _ row pivotNonzero, ← entering, objectiveEntry,
      represents.objectiveRow]
    abel

/-- The objective after a pivot: the entry under the entering column is taken away as often as the
ratio says. -/
theorem objective_pivot :
    (tableau.pivot 0 row column).objective = tableau.objective -
      (tableau.rhs row / tableau.entry row column) • tableau.objectiveEntry column := by
  unfold objective
  rw [represents.get_pivot_of_ne pivotNonzero (Fin.succ_ne_zero row).symm, mul_augmented_last,
    ← represents.rhs_eq]
  rfl

omit pivotNonzero in
/-- Where an entering column has a negative entry in the objective row, a pivot on a positive entry
does not make the objective smaller. -/
theorem objective_le_pivot (level : 0 ≤ tableau.rhs row) (positive : 0 < tableau.entry row column)
    (negative : tableau.objectiveEntry column < 0) :
    tableau.objective ≤ (tableau.pivot 0 row column).objective := by
  have ratio : 0 ≤ tableau.rhs row / tableau.entry row column := div_nonneg level positive.le
  rw [represents.objective_pivot positive.ne', le_sub_self_iff]
  exact smul_nonpos_of_nonneg_of_nonpos ratio negative.le

end Represents

theorem get_ratios (column : Fin form.numColumns) (row : Fin form.numRows) :
    (tableau.ratios 0 column).get row =
      if 0 < tableau.entry row column then some (tableau.rhs row / tableau.entry row column)
      else none :=
  get_vectorOfFn _ row

/-- A row whose ratio is present has a positive entry, and the ratio is that of its level. -/
theorem ratio_of_get_ratios {column : Fin form.numColumns} {row : Fin form.numRows} {ratio : Rat}
    (present : (tableau.ratios 0 column).get row = some ratio) :
    0 < tableau.entry row column ∧ tableau.rhs row / tableau.entry row column = ratio := by
  rw [get_ratios] at present
  split at present
  · rename_i positive
    exact ⟨positive, Option.some.inj present⟩
  · cases present

/-- After a pivot on the least ratio no right-hand side is negative. -/
theorem Represents.rhs_pivot_nonneg (represents : Represents form inverse tableau)
    (nonneg : ∀ row, 0 ≤ tableau.rhs row) {column : Fin form.numColumns} {row : Fin form.numRows}
    {least : Rat} (present : (tableau.ratios 0 column).get row = some least)
    (below : ∀ other ratio, (tableau.ratios 0 column).get other = some ratio → least ≤ ratio)
    (i : Fin form.numRows) : 0 ≤ (tableau.pivot 0 row column).rhs i := by
  obtain ⟨positive, rfl⟩ := ratio_of_get_ratios present
  have pivoted := (represents.pivot positive.ne').rows i (Fin.last _)
  rw [exchangeRows_mul] at pivoted
  rw [rhs, pivoted, BigM.value_ofScalar]
  by_cases same : i = row
  · subst same
    rw [exchangeRows_apply_self, mul_augmented_last, ← represents.rhs_eq]
    exact div_nonneg (nonneg i) positive.le
  · rw [exchangeRows_apply_of_ne _ same, mul_augmented_last, mul_augmented_last,
      ← represents.rhs_eq, ← represents.rhs_eq]
    have step : 0 ≤ tableau.rhs row / tableau.entry row column :=
      div_nonneg (nonneg row) positive.le
    -- a row with a positive entry has a ratio, which is not below the least one
    by_cases grows : 0 < tableau.entry i column
    · have ratio := below i _ ((get_ratios column i).trans (if_pos grows))
      rw [le_div_iff₀ grows, mul_comm] at ratio
      exact sub_nonneg.2 ratio
    · exact sub_nonneg.2 ((mul_nonpos_of_nonpos_of_nonneg (not_lt.1 grows) step).trans (nonneg i))

end Tableau

end LinearProgramming
