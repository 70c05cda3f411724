/-
This file says what the parts of an analysis are when its run had no tolerance.

An analysis is accepted only when the standard form of the run agrees with that of the problem in
every entry, so its tableau is an optimal tableau of the problem itself. The inverse of the basis
matrix is then read off the tableau, pricing a column is multiplying its signed entries by the
inverse, and the tests for feasibility and improvement are comparisons with zero.
-/

import Mathlib
import LinearProgramming.Proofs.Sensitivity.KeptBasis
import LinearProgramming.Sensitivity.WhatIf

namespace LinearProgramming

/-! ### Agreement of forms -/

instance : LawfulBEq (BigM Rat) where
  rfl {number} := by
    show (number.value == number.value && number.penalty == number.penalty) = true
    simp
  eq_of_beq {left right} same := by
    have parts : (left.value == right.value && left.penalty == right.penalty) = true := same
    rw [Bool.and_eq_true, beq_iff_eq, beq_iff_eq] at parts
    exact BigM.ext_parts parts.1 parts.2

theorem Column.key_injective {vars rows : Nat} :
    Function.Injective (Column.key : Column vars rows → Nat × Nat) := by
  intro left right same
  cases left <;> cases right <;> simp_all [Column.key, Fin.ext_iff]

theorem toList_injective {β : Type} {n : Nat} :
    Function.Injective (Vector.toList : Vector β n → List β) := fun _ _ => Vector.toList_inj.1

theorem DenseMatrix.toLists_injective {m n : Nat} :
    Function.Injective (DenseMatrix.toLists : DenseMatrix Rat m n → List (List Rat)) := by
  intro left right same
  have rows := List.map_injective_iff.2 toList_injective same
  exact DenseMatrix.ext_get fun i j =>
    congrArg (fun rows => (rows.get i).get j) (toList_injective rows)

/-- Forms that agree are equal. -/
theorem StandardForm.eq_of_agrees {left right : StandardForm Rat}
    (agreed : left.agrees right = true) : left = right := by
  unfold agrees at agreed
  simp only [Bool.and_eq_true, beq_iff_eq] at agreed
  obtain ⟨⟨⟨⟨⟨⟨⟨⟨⟨⟨⟨numVars, columns⟩, names⟩, numRows⟩, numColumns⟩, a⟩, b⟩, costs⟩, initialBasis⟩,
    rowSigns⟩, slackOf⟩, artificialOf⟩ := agreed
  have indices {bound : Nat} : Function.Injective (Option.map (Fin.val (n := bound))) :=
    Option.map_injective Fin.val_injective
  cases left
  cases right
  dsimp only at *
  subst numVars numRows numColumns
  obtain rfl := toList_injective (List.map_injective_iff.2 Column.key_injective columns)
  obtain rfl := toList_injective names
  obtain rfl := DenseMatrix.toLists_injective a
  obtain rfl := toList_injective b
  obtain rfl := toList_injective costs
  obtain rfl := toList_injective (List.map_injective_iff.2 Fin.val_injective initialBasis)
  obtain rfl := toList_injective rowSigns
  obtain rfl := toList_injective (List.map_injective_iff.2 indices slackOf)
  obtain rfl := toList_injective (List.map_injective_iff.2 indices artificialOf)
  rfl

/-! ### Analyses without tolerance -/

/-- An optimal tableau of the standard form of a problem, with the inverse of its basis matrix and
the solver that made it without tolerance. -/
structure OptimalBasis (problem : Problem Rat) where
  valid : problem.Valid
  solver : Solver Rat
  exact : solver.tolerance = 0
  tableau : Tableau Rat problem.numRows problem.numColumns
  inverse : Matrix (Fin problem.numRows) (Fin problem.numRows) Rat
  represents : tableau.Represents (.ofProblem problem valid) inverse
  rhs_nonneg : ∀ row, 0 ≤ tableau.rhs row
  objective_nonneg : ∀ column, 0 ≤ tableau.objectiveEntry column
  artificial : ∀ row,
    (problem.columnVector.get (tableau.basis.get row)).isArtificial = true → tableau.rhs row = 0

/-- The analysis of an optimal tableau. -/
abbrev OptimalBasis.analysis {problem : Problem Rat} (basis : OptimalBasis problem) :
    Sensitivity Rat :=
  ⟨problem, basis.valid, basis.solver, .ofProblem problem basis.valid, basis.tableau, rfl, rfl⟩

namespace Sensitivity

/-- The analysis of a problem was made from a run without tolerance, after any number of steps.
The run may be one of another problem. -/
def OfExactRun (problem : Problem Rat) (analysis : Sensitivity Rat) : Prop :=
  ∃ (solver : Solver Rat) (other : Problem Rat) (started : (form : StandardForm Rat) × Run form)
      (count : Nat), solver.tolerance = 0 ∧ solver.start other = .ok started ∧
    ofRun problem (started.2.afterSteps count) = .ok analysis

theorem ofExactRun_of_analyze {problem : Problem Rat} {solver : Solver Rat}
    {analysis : Sensitivity Rat} (exact : solver.tolerance = 0)
    (analyzed : analyze problem solver = .ok analysis) : OfExactRun problem analysis := by
  unfold analyze at analyzed
  cases started : solver.start problem with
  | error fault =>
    rw [started] at analyzed
    cases analyzed
  | ok start =>
    rw [started] at analyzed
    refine ⟨solver, problem, start, start.2.solver.maxIterations - start.2.iterations + 1, exact,
      started, ?_⟩
    rw [← Run.stepAtMost_eq_afterSteps]
    exact analyzed

/-- A run that an analysis accepts is optimal on the standard form of the problem. -/
theorem ofRun_eq_ok {problem : Problem Rat} {form : StandardForm Rat} {run : Run form}
    {analysis : Sensitivity Rat} (made : ofRun problem run = .ok analysis) :
    run.status = some .optimal ∧ ∃ (valid : problem.Valid)
      (sameVars : form.numVars = problem.numVars) (sameRows : form.numRows = problem.numRows),
      form = .ofProblem problem valid ∧
        analysis = ⟨problem, valid, run.solver, form, run.tableau, sameVars, sameRows⟩ := by
  unfold ofRun at made
  split at made
  · rename_i optimal
    refine ⟨optimal, ?_⟩
    cases validated : problem.validate with
    | error fault =>
      rw [validated] at made
      cases made
    | ok evidence =>
      obtain ⟨valid⟩ := evidence
      rw [validated] at made
      simp only [bind, Except.bind] at made
      split at made
      · rename_i sameVars
        split at made
        · rename_i sameRows
          split at made
          · rename_i agrees
            exact ⟨valid, sameVars, sameRows, StandardForm.eq_of_agrees agrees,
              (Except.ok.inj made).symm⟩
          · cases made
        · cases made
      · cases made
  · cases made

end Sensitivity

theorem Solver.exact_of_start {solver : Solver Rat} (exact : solver.tolerance = 0)
    {problem : Problem Rat} {started : (form : StandardForm Rat) × Run form}
    (start : solver.start problem = .ok started) (count : Nat) :
    (started.2.afterSteps count).Exact := by
  unfold Solver.start at start
  cases validated : problem.validate with
  | error fault =>
    rw [validated] at start
    cases start
  | ok evidence =>
    obtain ⟨valid⟩ := evidence
    rw [validated] at start
    cases start
    exact (Run.initial_exact (StandardForm.canonical_ofProblem valid) exact _).afterSteps count

/-- An analysis from a run without tolerance has an optimal tableau of its problem. -/
theorem Sensitivity.OfExactRun.exists_basis {problem : Problem Rat} {analysis : Sensitivity Rat}
    (made : OfExactRun problem analysis) :
    ∃ basis : OptimalBasis problem, analysis = basis.analysis := by
  obtain ⟨solver, other, started, count, exact, start, made⟩ := made
  have runExact := solver.exact_of_start exact start count
  obtain ⟨form, initial⟩ := started
  generalize initial.afterSteps count = run at made runExact
  obtain ⟨optimal, valid, sameVars, sameRows, rfl, rfl⟩ := ofRun_eq_ok made
  obtain ⟨inverse, represents⟩ := runExact.represents
  have shown := runExact.showsEnd
  rw [optimal] at shown
  obtain ⟨nonneg, settled⟩ := shown
  refine ⟨⟨valid, run.solver, runExact.tolerance, run.tableau, inverse, represents,
    runExact.rhs_nonneg, nonneg, fun row artificial => ?_⟩, rfl⟩
  exact (Tableau.levelOf_basis represents.basis_injective row).symm.trans
    (runExact.noArtificial settled _ artificial)

/-! ### The parts of an analysis -/

theorem Tableau.isBasic_iff {m n : Nat} {tableau : Tableau Rat m n}
    (injective : Function.Injective tableau.basis.get) {column : Fin n} :
    tableau.isBasic column.val = true ↔ column ∈ Set.range tableau.basis.get := by
  unfold isBasic
  constructor
  · intro found
    obtain ⟨row, found⟩ := Option.isSome_iff_exists.1 found
    exact ⟨row, Fin.ext (basis_of_basicRow? found)⟩
  · rintro ⟨row, rfl⟩
    rw [basicRow?_basis injective row]
    rfl

theorem Tableau.not_isBasic_of_basicRow?_eq_none {m n : Nat} {tableau : Tableau Rat m n}
    {number : Nat} (outside : tableau.basicRow? number = none) :
    ¬ tableau.isBasic number = true := by
  unfold isBasic
  rw [outside]
  exact Bool.false_ne_true

/-- The values of costs times levels add up to the value of the sum. -/
theorem BigM.dot_map_value {n : Nat} (costs : Vector (BigM Rat) n) (levels : Vector Rat n) :
    Scalar.dot (costs.toList.map BigM.value) levels.toList =
      (∑ i, levels.get i • costs.get i).value := by
  rw [← Vector.toList_map, Scalar.dot_toList, BigM.value_sum]
  refine Finset.sum_congr rfl fun i _ => ?_
  rw [BigM.value_smul, get_vectorMap, mul_comm]

theorem Sensitivity.reducedCost_eq {m : Nat} (cost : BigM Rat) (direction : Vector Rat m)
    (basicCosts : Vector (BigM Rat) m) :
    reducedCost cost direction basicCosts =
      cost - ∑ row, direction.get row • basicCosts.get row := by
  unfold reducedCost
  rw [BigM.dot_toList]

namespace OptimalBasis

variable {problem : Problem Rat} (basis : OptimalBasis problem)

theorem injective : Function.Injective basis.tableau.basis.get := basis.represents.basis_injective

/-- The cost of the basic column of a row. -/
def basicCost (row : Fin problem.numRows) : BigM Rat :=
  problem.sense.columnCost (problem.objectiveCoefficient basis.valid)
    (problem.columnVector.get (basis.tableau.basis.get row))

theorem get_costs (column : Fin problem.numColumns) :
    basis.analysis.form.costs.get column = problem.sense.columnCost
      (problem.objectiveCoefficient basis.valid) (problem.columnVector.get column) :=
  (StandardForm.ofProblem_costs basis.valid column).trans
    (Problem.cost_eq_columnCost basis.valid _)

theorem get_basicCosts (row : Fin problem.numRows) :
    basis.analysis.basicCosts.get row = basis.basicCost row :=
  (get_vectorMap _ _ row).trans (basis.get_costs _)

/-- The columns of the first basis hold the inverse. -/
theorem toMatrix_inverse : basis.analysis.inverse.toMatrix = basis.inverse := by
  ext row i
  exact (DenseMatrix.get_ofFn _ row i).trans
    (basis.represents.entry_initialBasis (StandardForm.canonical_ofProblem basis.valid) row i)

/-- Pricing a column multiplies its signed entries by the inverse. -/
theorem get_price (column : Vector Rat problem.numRows) (row : Fin problem.numRows) :
    (basis.analysis.price column).get row =
      basis.inverse.mulVec (problem.signed column.get) row := by
  have oriented : (basis.analysis.oriented column).get = problem.signed column.get := by
    funext i
    refine (Vector.getElem_zipWith i.isLt).trans ((mul_comm _ _).trans ?_)
    exact congrArg (· * column.get i) (get_vectorOfFn problem.rowSign i)
  refine (DenseMatrix.get_mulVec_eq _ _ row).trans ?_
  exact congrFun (congrArg₂ Matrix.mulVec basis.toMatrix_inverse oriented) row

theorem improves_iff (reduced : BigM Rat) :
    basis.analysis.improves reduced = true ↔ 0 < reduced := by
  have exact : basis.analysis.tolerance = 0 := basis.exact
  unfold Sensitivity.improves
  rw [exact]
  exact BigM.lessWithin_zero_iff 0 reduced

/-- Levels are feasible when none is negative and the artificial ones are zero. -/
theorem isFeasible_iff (levels : Vector Rat problem.numRows) :
    basis.analysis.isFeasible levels = true ↔ ∀ row, 0 ≤ levels.get row ∧
      ((problem.columnVector.get (basis.tableau.basis.get row)).isArtificial = true →
        levels.get row = 0) := by
  have exact : basis.analysis.tolerance = 0 := basis.exact
  unfold Sensitivity.isFeasible
  rw [exact, List.all_eq_true]
  refine ⟨fun all row => ?_, fun all row _ => ?_⟩
  · have tested := all row (List.mem_finRange row)
    split at tested
    · have zero := (BigM.abs_le_zero_iff _).1 (of_decide_eq_true tested)
      exact ⟨zero.symm.le, fun _ => zero⟩
    · rename_i notArtificial
      refine ⟨?_, fun artificial => absurd artificial notArtificial⟩
      rw [neg_zero] at tested
      exact of_decide_eq_true tested
  · obtain ⟨nonneg, zero⟩ := all row
    split
    · rename_i artificial
      exact decide_eq_true ((BigM.abs_le_zero_iff _).2 (zero artificial))
    · rw [neg_zero]
      exact decide_eq_true nonneg

/-- The objective at given levels is the value of what the basic columns cost there. -/
theorem objectiveAt_eq (levels : Vector Rat problem.numRows) :
    basis.analysis.objectiveAt levels =
      problem.sense.orient (∑ row, levels.get row • basis.basicCost row).value := by
  refine congrArg problem.sense.orient ((BigM.dot_map_value _ levels).trans ?_)
  refine congrArg BigM.value (Finset.sum_congr rfl fun row _ => ?_)
  exact congrArg (levels.get row • ·) (basis.get_basicCosts row)

/-- The point at the levels of the basis. -/
theorem valuesAt_eq (levels : Vector Rat problem.numRows) :
    basis.analysis.valuesAt levels = List.ofFn fun j : Fin problem.numVars =>
      basis.tableau.spread levels.get (j.castLE problem.numVars_le_numColumns) := by
  unfold Sensitivity.valuesAt
  rw [List.ofFn_eq_map, ← List.map_coe_finRange_eq_range, List.map_map]
  rfl

theorem get_levels : basis.analysis.levels.get = basis.tableau.rhs :=
  funext fun row => get_vectorOfFn basis.tableau.rhs row

theorem values_eq : basis.analysis.values = List.ofFn fun j : Fin problem.numVars =>
    basis.tableau.spread basis.tableau.rhs (j.castLE problem.numVars_le_numColumns) := by
  rw [← basis.get_levels]
  exact basis.valuesAt_eq basis.analysis.levels

/-- The objective of the analysis is the value of what the basic columns cost. -/
theorem objectiveValue_eq : basis.analysis.objectiveValue =
    problem.sense.orient (∑ row, basis.tableau.rhs row • basis.basicCost row).value := by
  refine congrArg problem.sense.orient (congrArg BigM.value ?_)
  refine (basis.represents.objective_eq).trans (Finset.sum_congr rfl fun row _ => ?_)
  exact congrArg (basis.tableau.rhs row • ·) (basis.get_costs _)

theorem objectiveAt_levels :
    basis.analysis.objectiveAt basis.analysis.levels = basis.analysis.objectiveValue := by
  rw [basis.objectiveValue_eq, ← basis.get_levels]
  exact basis.objectiveAt_eq basis.analysis.levels

theorem get_coefficients (j : Fin problem.numVars) :
    (basis.analysis.coefficients j).get = fun i => problem.coefficient basis.valid i j :=
  funext fun i => get_vectorOfFn (fun i => problem.coefficient basis.valid i j) i

theorem get_rightHandSides :
    basis.analysis.rightHandSides.get = fun i : Fin problem.numRows => (problem.row i).rhs :=
  funext fun i => get_vectorOfFn (fun i => (problem.row i).rhs) i

/-- The levels of the basis are what the inverse makes of the right-hand sides. -/
theorem levels_eq : basis.analysis.levels =
    basis.analysis.price basis.analysis.rightHandSides := by
  refine vector_ext_get fun (row : Fin problem.numRows) => ?_
  refine (congrFun basis.get_levels row).trans
    ((basis.represents.rhs_eq row).trans (Eq.trans ?_ (basis.get_price _ row).symm))
  refine congrArg (fun right => basis.inverse.mulVec right row) (funext fun i => ?_)
  exact (StandardForm.ofProblem_b basis.valid i).trans
    (congrArg (problem.rowSign i * ·) (congrFun basis.get_rightHandSides i).symm)

/-- The objective row holds what each column is worth beyond its cost. -/
theorem objectiveEntry_eq (column : Fin problem.numColumns) :
    basis.tableau.objectiveEntry column =
      ∑ row, basis.tableau.entry row column • basis.basicCost row -
        problem.sense.columnCost (problem.objectiveCoefficient basis.valid)
          (problem.columnVector.get column) := by
  refine (basis.represents.objectiveEntry_eq column).trans
    (congrArg₂ (· - ·) (Finset.sum_congr rfl fun row _ => ?_) (basis.get_costs column))
  exact congrArg (basis.tableau.entry row column • ·) (basis.get_costs _)

/-- No column of the tableau is worth less than it costs. -/
theorem cost_le (column : Fin problem.numColumns) :
    problem.sense.columnCost (problem.objectiveCoefficient basis.valid)
        (problem.columnVector.get column) ≤
      ∑ row, basis.tableau.entry row column • basis.basicCost row := by
  have nonneg := basis.objective_nonneg column
  rw [basis.objectiveEntry_eq] at nonneg
  exact sub_nonneg.1 nonneg

/-- A column that does not improve the objective is worth its cost. -/
theorem cost_le_of_not_improves {cost : BigM Rat} {direction : Vector Rat problem.numRows}
    {basicCosts : Vector (BigM Rat) problem.numRows}
    (stays : ¬ basis.analysis.improves
      (Sensitivity.reducedCost cost direction basicCosts) = true) :
    cost ≤ ∑ row, direction.get row • basicCosts.get row := by
  rw [basis.improves_iff, Sensitivity.reducedCost_eq, sub_pos, not_lt] at stays
  exact stays

/-- A column that is priced and does not improve the objective is worth its cost. -/
theorem cost_le_of_price {cost : BigM Rat} {column : Vector Rat problem.numRows}
    (stays : ¬ basis.analysis.improves (Sensitivity.reducedCost cost
      (basis.analysis.price column) basis.analysis.basicCosts) = true) :
    cost ≤ ∑ row, basis.inverse.mulVec (problem.signed column.get) row • basis.basicCost row := by
  refine (basis.cost_le_of_not_improves stays).trans_eq (Finset.sum_congr rfl fun row _ => ?_)
  exact congrArg₂ (· • ·) (basis.get_price column row) (basis.get_basicCosts row)

/-- With other objective coefficients the basis is kept when no column but the artificial ones is
worth less than it then costs. -/
theorem keeps_objective {objective : Fin problem.numVars → Rat}
    {basicCost : Fin problem.numRows → BigM Rat}
    (basicCost_eq : ∀ row, basicCost row = problem.sense.columnCost objective
      (problem.columnVector.get (basis.tableau.basis.get row)))
    (worth : ∀ column, ¬ (problem.columnVector.get column).isArtificial = true →
      problem.sense.columnCost objective (problem.columnVector.get column) ≤
        ∑ row, basis.tableau.entry row column • basicCost row) :
    KeepsBasis basis.valid basis.inverse basis.tableau
      { problem.indexed basis.valid with objective } basis.tableau.rhs basicCost where
  represents := basis.represents
  sense := rfl
  relation _ := rfl
  basicCost_eq := basicCost_eq
  levels_eq := by
    refine (funext basis.represents.rhs_eq).trans (congrArg basis.inverse.mulVec ?_)
    exact funext fun i => StandardForm.ofProblem_b basis.valid i
  nonneg := basis.rhs_nonneg
  artificial := basis.artificial
  kept _ _ _ := rfl
  covers j := by
    have worth := worth (j.castLE problem.numVars_le_numColumns)
    simp only [basis.represents.entry_decision] at worth
    rw [problem.get_columnVector_decision] at worth
    exact worth Bool.false_ne_true
  slack column i closes := by
    have worth := worth column
    rcases Problem.slackColumn?_kind closes with slack | surplus
    · rw [slack] at worth
      exact worth Bool.false_ne_true
    · rw [surplus] at worth
      exact worth Bool.false_ne_true

/-- The basis is kept for the numbers of the problem itself. -/
theorem keeps : KeepsBasis basis.valid basis.inverse basis.tableau (problem.indexed basis.valid)
    basis.tableau.rhs basis.basicCost :=
  basis.keeps_objective (fun _ => rfl) fun column _ => basis.cost_le column

end OptimalBasis

end LinearProgramming
