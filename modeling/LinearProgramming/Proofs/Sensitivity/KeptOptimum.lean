/-
This file proves that the checks of an analysis keep its basis optimal.

Each kind of change is checked by other means. A replaced row turns the levels, and the variables
whose coefficients it changes are priced again; they must not be basic. Another cost of a variable
outside the basis concerns that variable alone, while another cost of a basic variable changes the
prices and concerns every column. A new variable is priced once. In each case what is checked is
what keeps the basis.
-/

import Mathlib
import LinearProgramming.Proofs.Margin
import LinearProgramming.Proofs.Sensitivity.Analysis
import LinearProgramming.Proofs.Sensitivity.ChangedProblem

namespace LinearProgramming

/-! ### Accepted optima -/

/-- A problem accepts values as an optimum with a given objective: its own checks pass, the
objective is that of the values, and no feasible point has a better one. -/
structure Problem.AcceptsOptimum (problem : Problem Rat) (objective : Rat) (values : List Rat) :
    Prop where
  length : values.length = problem.numVars
  nonneg : ∀ level ∈ values, 0 ≤ level
  satisfied : ∀ constraint ∈ problem.constraints, constraint.isSatisfiedBy values = true
  objective_eq : objective = problem.evaluate values
  best : ∀ other, problem.Feasible other →
    ¬ problem.sense.Better (problem.evaluate other) (problem.evaluate values)

namespace Problem

variable {problem : Problem Rat} {objective : Rat} {values : List Rat}

theorem IsBest.acceptsOptimum (best : problem.IsBest values)
    (same : objective = problem.evaluate values) : problem.AcceptsOptimum objective values where
  length := best.feasible.length
  nonneg := best.feasible.nonneg
  satisfied constraint member :=
    Constraint.isSatisfiedBy_of_holds (best.feasible.holds constraint member)
  objective_eq := same
  best := best.best

/-- A further constraint that the values pass leaves fewer points to better them. -/
theorem AcceptsOptimum.addConstraint (accepted : problem.AcceptsOptimum objective values)
    {constraint : Constraint Rat} (satisfied : constraint.isSatisfiedBy values = true) :
    (problem.addConstraint constraint).AcceptsOptimum objective values where
  length := accepted.length
  nonneg := accepted.nonneg
  satisfied other member := by
    rcases List.mem_append.1 member with old | new
    · exact accepted.satisfied other old
    · rw [List.mem_singleton.1 new]
      exact satisfied
  objective_eq := accepted.objective_eq
  best other feasible := accepted.best other ⟨feasible.length, feasible.nonneg,
    fun old member => feasible.holds old (List.mem_append_left _ member)⟩

end Problem

theorem ofFn_get_vector {β : Type} {n : Nat} (vector : Vector β n) :
    List.ofFn vector.get = vector.toList :=
  (congrArg List.ofFn (funext fun i => (vector_toList_get vector i).symm)).trans
    (ofFn_get_cast vector.toList vector.length_toList)

theorem get_replaceEntry_eq_update {β : Type} {n : Nat} (vector : Vector β n) (i : Fin n)
    (entry : β) : (replaceEntry vector i entry).get = Function.update vector.get i entry := by
  funext j
  rw [get_replaceEntry, Function.update_apply]

/-- A column after one row is replaced is the column with one entry replaced. -/
theorem column_update {m n : Nat} (entry : Fin m → Fin n → Rat) (row : Fin m)
    (other : Fin n → Rat) (j : Fin n) :
    (fun i => Function.update entry row other i j) =
      Function.update (fun i => entry i j) row (other j) := by
  funext i
  by_cases replaced : i = row
  · subst replaced
    rw [Function.update_self, Function.update_self]
  · rw [Function.update_of_ne replaced, Function.update_of_ne replaced]

namespace OptimalBasis

variable {problem : Problem Rat} (basis : OptimalBasis problem)

/-- Where the basis is kept, the program accepts its point and what the basic columns cost. -/
theorem acceptsOptimum {program : IndexedProblem problem.numRows problem.numVars}
    {levels : Vector Rat problem.numRows} {basicCost : Fin problem.numRows → BigM Rat}
    (keeps : KeepsBasis basis.valid basis.inverse basis.tableau program levels.get basicCost) :
    program.toProblem.AcceptsOptimum
      (problem.sense.orient (∑ row, levels.get row • basicCost row).value)
      (basis.analysis.valuesAt levels) := by
  rw [basis.valuesAt_eq]
  refine keeps.isBest.acceptsOptimum ?_
  rw [keeps.objective_eq, BigM.value_ofScalar, Sense.orient_orient,
    IndexedProblem.evaluate_toProblem]

/-- Where the basis is kept at its old levels, the program accepts the old values. -/
theorem acceptsOptimum_values {program : IndexedProblem problem.numRows problem.numVars}
    {basicCost : Fin problem.numRows → BigM Rat}
    (keeps : KeepsBasis basis.valid basis.inverse basis.tableau program basis.tableau.rhs
      basicCost) :
    program.toProblem.AcceptsOptimum
      (problem.sense.orient (∑ row, basis.tableau.rhs row • basicCost row).value)
      basis.analysis.values := by
  rw [← basis.get_levels] at keeps ⊢
  exact basis.acceptsOptimum keeps

/-- The problem itself accepts the values of the analysis. -/
theorem acceptsOptimum_self :
    problem.AcceptsOptimum basis.analysis.objectiveValue basis.analysis.values := by
  have accepted := basis.acceptsOptimum_values basis.keeps
  rw [problem.toProblem_indexed basis.valid, ← basis.objectiveValue_eq] at accepted
  exact accepted

/-! ### A replaced row -/

/-- The cost of a variable. -/
theorem get_costs_variable (j : Fin problem.numVars) :
    basis.analysis.form.costs.get (basis.analysis.variableColumn j) =
      .ofScalar (problem.sense.orient (problem.objectiveCoefficient basis.valid j)) :=
  (basis.get_costs _).trans
    (congrArg (problem.sense.columnCost _) (problem.get_columnVector_decision j))

/-- A variable that the analysis finds in no row has no basic column. -/
theorem not_mem_range_of_not_isBasic {j : Fin problem.numVars}
    (outside : ¬ basis.tableau.isBasic j = true) :
    j.castLE problem.numVars_le_numColumns ∉ Set.range basis.tableau.basis.get := by
  intro basic
  have found : basis.tableau.isBasic (j.castLE problem.numVars_le_numColumns) = true :=
    (Tableau.isBasic_iff basis.injective).2 basic
  exact outside found

/-- A variable goes along with other coefficients in a row: it keeps its own, or it is not basic
and does not improve the objective with the other one. -/
def GoesAlong (row : Fin problem.numRows) (coefficients : Vector Rat problem.numVars)
    (j : Fin problem.numVars) : Prop :=
  coefficients.get j = problem.coefficient basis.valid row j ∨
    ¬ basis.tableau.isBasic j = true ∧
      ¬ basis.analysis.improves (basis.analysis.repriced row coefficients j).2 = true

/-- The column of a variable after its coefficient in a row is replaced. -/
theorem get_replaceEntry_coefficients (row : Fin problem.numRows) (j : Fin problem.numVars)
    (coefficient : Rat) :
    (replaceEntry (basis.analysis.coefficients j) row coefficient).get =
      Function.update (fun i => problem.coefficient basis.valid i j) row coefficient :=
  (get_replaceEntry_eq_update _ row coefficient).trans
    (congrArg (fun column : Fin problem.numRows → Rat => Function.update column row coefficient)
      (basis.get_coefficients j))

theorem get_replaceEntry_rightHandSides (row : Fin problem.numRows) (rhs : Rat) :
    (replaceEntry basis.analysis.rightHandSides row rhs).get =
      Function.update (fun i => (problem.row i).rhs) row rhs :=
  (get_replaceEntry_eq_update _ row rhs).trans
    (congrArg (fun column : Fin problem.numRows → Rat => Function.update column row rhs)
      basis.get_rightHandSides)

/-- A row is replaced by another one with the same relation: the basis is kept when the new levels
are feasible and every variable goes along. -/
theorem keeps_replaceRow {row : Fin problem.numRows} {coefficients : Vector Rat problem.numVars}
    {rhs : Rat} (name : String)
    (feasible : basis.analysis.isFeasible (basis.analysis.price
      (replaceEntry basis.analysis.rightHandSides row rhs)) = true)
    (along : ∀ j, basis.GoesAlong row coefficients j) :
    KeepsBasis basis.valid basis.inverse basis.tableau
      ((problem.indexed basis.valid).replaceRow row name coefficients.get
        (problem.row row).relation rhs)
      (basis.analysis.price (replaceEntry basis.analysis.rightHandSides row rhs)).get
      basis.basicCost where
  represents := basis.represents
  sense := rfl
  relation i := by
    by_cases same : i = row
    · subst same
      exact Function.update_self ..
    · exact Function.update_of_ne same ..
  basicCost_eq _ := rfl
  levels_eq := by
    funext i
    exact (basis.get_price _ i).trans
      (congrArg (fun right => basis.inverse.mulVec (problem.signed right) i)
        (basis.get_replaceEntry_rightHandSides row rhs))
  nonneg i := ((basis.isFeasible_iff _).1 feasible i).1
  artificial i := ((basis.isFeasible_iff _).1 feasible i).2
  kept j basic i := by
    rcases along j with same | ⟨outside, _⟩
    · by_cases replaced : i = row
      · subst replaced
        exact (congrFun (Function.update_self ..) j).trans same
      · exact congrFun (Function.update_of_ne replaced ..) j
    · exact absurd basic (basis.not_mem_range_of_not_isBasic outside)
  covers j := by
    show _ ≤ ∑ i, basis.inverse.mulVec (problem.signed fun i =>
      Function.update (problem.coefficient basis.valid) row coefficients.get i j) i •
        basis.basicCost i
    rw [column_update]
    rcases along j with same | ⟨_, stays⟩
    · rw [same, Function.update_eq_self]
      exact basis.keeps.covers j
    · have covered := basis.cost_le_of_price stays
      rw [basis.get_costs_variable] at covered
      refine covered.trans_eq (Finset.sum_congr rfl fun i _ => ?_)
      exact congrArg (fun column => basis.inverse.mulVec (problem.signed column) i •
        basis.basicCost i) (basis.get_replaceEntry_coefficients row j _)
  slack := basis.keeps.slack

/-- The problem with the replaced row accepts the point and the objective at the new levels. -/
theorem acceptsOptimum_replaceRow {row : Fin problem.numRows} {constraint : Constraint Rat}
    {coefficients : Vector Rat problem.numVars}
    (listed : coefficients.toList = constraint.coefficients)
    (relation : constraint.relation = (problem.row row).relation)
    (feasible : basis.analysis.isFeasible (basis.analysis.price
      (replaceEntry basis.analysis.rightHandSides row constraint.rhs)) = true)
    (along : ∀ j, basis.GoesAlong row coefficients j) :
    (problem.replaceRow row constraint).AcceptsOptimum
      (basis.analysis.objectiveAt (basis.analysis.price
        (replaceEntry basis.analysis.rightHandSides row constraint.rhs)))
      (basis.analysis.valuesAt (basis.analysis.price
        (replaceEntry basis.analysis.rightHandSides row constraint.rhs))) := by
  have accepted := basis.acceptsOptimum (basis.keeps_replaceRow constraint.name feasible along)
  rw [IndexedProblem.toProblem_replaceRow, Problem.toProblem_indexed, ofFn_get_vector, listed,
    ← relation] at accepted
  exact basis.objectiveAt_eq _ ▸ accepted

/-- The coefficients of a row. -/
def rowCoefficients (row : Fin problem.numRows) : Vector Rat problem.numVars :=
  Vector.ofFn (problem.coefficient basis.valid row)

theorem get_rowCoefficients (row : Fin problem.numRows) (j : Fin problem.numVars) :
    (basis.rowCoefficients row).get j = problem.coefficient basis.valid row j :=
  get_vectorOfFn _ j

theorem toList_rowCoefficients (row : Fin problem.numRows) :
    (basis.rowCoefficients row).toList = (problem.row row).coefficients :=
  Vector.toList_ofFn.trans (ofFn_get_cast _
    (basis.valid.constraints_fit _ (List.get_mem _ row)).length)

/-- A row that keeps its right-hand side leaves the levels as they are. -/
theorem price_rightHandSides (row : Fin problem.numRows) :
    basis.analysis.price
        (replaceEntry basis.analysis.rightHandSides row (problem.row row).rhs) =
      basis.analysis.levels := by
  rw [basis.levels_eq]
  refine congrArg basis.analysis.price (vector_ext_get fun i => ?_)
  have own := congrFun basis.get_rightHandSides
  refine (congrFun (basis.get_replaceEntry_rightHandSides row _) i).trans
    (Eq.trans ?_ (own i).symm)
  exact congrFun (Function.update_eq_self row fun i => (problem.row i).rhs) i

theorem isFeasible_levels : basis.analysis.isFeasible basis.analysis.levels = true := by
  refine (basis.isFeasible_iff basis.analysis.levels).2 fun row => ?_
  have level : basis.analysis.levels.get row = basis.tableau.rhs row :=
    congrFun basis.get_levels row
  exact ⟨(basis.rhs_nonneg row).trans_eq level.symm,
    fun artificial => level.trans (basis.artificial row artificial)⟩

/-- Where only coefficients of a row change, the problem accepts the old point and the old
objective. -/
theorem acceptsOptimum_coefficients {row : Fin problem.numRows} {constraint : Constraint Rat}
    {coefficients : Vector Rat problem.numVars}
    (listed : coefficients.toList = constraint.coefficients)
    (relation : constraint.relation = (problem.row row).relation)
    (rhs : constraint.rhs = (problem.row row).rhs)
    (along : ∀ j, basis.GoesAlong row coefficients j) :
    (problem.replaceRow row constraint).AcceptsOptimum basis.analysis.objectiveValue
      basis.analysis.values := by
  have same : basis.analysis.price
      (replaceEntry basis.analysis.rightHandSides row constraint.rhs) = basis.analysis.levels := by
    rw [rhs]
    exact basis.price_rightHandSides row
  have feasible := (congrArg basis.analysis.isFeasible same).trans basis.isFeasible_levels
  have accepted := basis.acceptsOptimum_replaceRow listed relation feasible along
  rw [same, basis.objectiveAt_levels] at accepted
  exact accepted

/-! ### Another cost -/

/-- No basic column is that of a variable outside the basis. -/
theorem get_columnVector_basis_ne {j : Fin problem.numVars}
    (outside : j.castLE problem.numVars_le_numColumns ∉ Set.range basis.tableau.basis.get)
    (row : Fin problem.numRows) :
    problem.columnVector.get (basis.tableau.basis.get row) ≠ .decision j := fun same =>
  outside ⟨row, Problem.eq_of_get_columnVector_eq_decision same⟩

/-- A variable outside the basis gets another cost: the basis is kept when the variable does not
improve the objective. -/
theorem keeps_setCost_outside {j : Fin problem.numVars} {cost : Rat}
    (outside : ¬ basis.tableau.isBasic j = true)
    (stays : ¬ basis.analysis.improves (Sensitivity.reducedCost
      (.ofScalar (problem.sense.orient cost))
      (basis.tableau.column (j.castLE problem.numVars_le_numColumns))
      basis.analysis.basicCosts) = true) :
    KeepsBasis basis.valid basis.inverse basis.tableau
      ((problem.indexed basis.valid).setCost j cost) basis.tableau.rhs basis.basicCost := by
  have notBasic := basis.not_mem_range_of_not_isBasic outside
  refine basis.keeps_objective (fun row => ?_) fun column _ => ?_
  · exact (problem.sense.columnCost_update_of_ne _ cost
      (basis.get_columnVector_basis_ne notBasic row)).symm
  · show problem.sense.columnCost (Function.update _ j cost) _ ≤ _
    by_cases own : problem.columnVector.get column = .decision j
    · rw [own, Sense.columnCost_update_self, Problem.eq_of_get_columnVector_eq_decision own]
      refine (basis.cost_le_of_not_improves stays).trans_eq (Finset.sum_congr rfl fun row _ => ?_)
      exact congrArg₂ (· • ·) (get_vectorOfFn _ row) (basis.get_basicCosts row)
    · rw [Sense.columnCost_update_of_ne _ _ _ own]
      exact basis.cost_le column

/-- The costs of the basic columns after that of a basic variable is replaced. -/
theorem get_replaceEntry_basicCosts {j : Fin problem.numVars} {row : Fin problem.numRows}
    (own : basis.tableau.basis.get row = j.castLE problem.numVars_le_numColumns) (cost : Rat)
    (i : Fin problem.numRows) :
    (replaceEntry basis.analysis.basicCosts row (.ofScalar (problem.sense.orient cost))).get i =
      problem.sense.columnCost (Function.update (problem.objectiveCoefficient basis.valid) j cost)
        (problem.columnVector.get (basis.tableau.basis.get i)) := by
  refine (get_replaceEntry _ row i _).trans ?_
  by_cases same : i = row
  · rw [same, own, problem.get_columnVector_decision, Sense.columnCost_update_self]
    exact if_pos rfl
  · have other : problem.columnVector.get (basis.tableau.basis.get i) ≠ .decision j :=
      fun decision => same (basis.injective
        ((Problem.eq_of_get_columnVector_eq_decision decision).trans own.symm))
    rw [Sense.columnCost_update_of_ne _ _ _ other]
    exact (if_neg same).trans (basis.get_basicCosts i)

/-- A basic variable gets another cost: the basis is kept when no candidate improves the
objective at the changed costs of the basic columns. -/
theorem keeps_setCost_inside {j : Fin problem.numVars} {cost : Rat}
    {basicCosts : Vector (BigM Rat) problem.numRows}
    (inside : j.castLE problem.numVars_le_numColumns ∈ Set.range basis.tableau.basis.get)
    (costs : ∀ row, basicCosts.get row = problem.sense.columnCost
      (Function.update (problem.objectiveCoefficient basis.valid) j cost)
      (problem.columnVector.get (basis.tableau.basis.get row)))
    (stay : ∀ column ∈ basis.analysis.candidates, ¬ basis.analysis.improves
      (Sensitivity.reducedCost (basis.analysis.form.costs.get column)
        (basis.tableau.column column) basicCosts) = true) :
    KeepsBasis basis.valid basis.inverse basis.tableau
      ((problem.indexed basis.valid).setCost j cost) basis.tableau.rhs basicCosts.get := by
  refine basis.keeps_objective costs fun column notArtificial => ?_
  show problem.sense.columnCost
    (Function.update (problem.objectiveCoefficient basis.valid) j cost) _ ≤ _
  by_cases basic : column ∈ Set.range basis.tableau.basis.get
  · -- a basic column is worth exactly its cost
    obtain ⟨row, rfl⟩ := basic
    have entries : ∀ i, basis.tableau.entry i (basis.tableau.basis.get row) =
        if i = row then 1 else 0 := fun i => basis.represents.entry_basis i row
    simp only [entries, ite_smul, one_smul, zero_smul, Finset.sum_ite_eq', Finset.mem_univ, if_true]
    exact (costs row).symm.le
  · have candidate : column ∈ basis.analysis.candidates := by
      refine List.mem_filter.2 ⟨List.mem_finRange column, ?_⟩
      have outside : ¬ basis.tableau.isBasic column = true := fun found =>
        basic ((Tableau.isBasic_iff basis.injective).1 found)
      exact congrArg₂ (fun basic artificial => !basic && !artificial)
        (Bool.eq_false_iff.2 outside) (Bool.eq_false_iff.2 notArtificial)
    have other : problem.columnVector.get column ≠ .decision j := fun decision =>
      basic (Problem.eq_of_get_columnVector_eq_decision decision ▸ inside)
    rw [Sense.columnCost_update_of_ne _ _ _ other, ← basis.get_costs]
    refine (basis.cost_le_of_not_improves (stay column candidate)).trans_eq
      (Finset.sum_congr rfl fun row _ => ?_)
    exact congrArg (· • basicCosts.get row) (get_vectorOfFn _ row)

/-! ### A new variable -/

/-- A new variable that does not improve the objective stays at zero. -/
theorem acceptsOptimum_addVariable {name : String} {cost : Rat}
    {column : Vector Rat problem.numRows}
    (stays : ¬ basis.analysis.improves (Sensitivity.reducedCost
      (.ofScalar (problem.sense.orient cost)) (basis.analysis.price column)
      basis.analysis.basicCosts) = true) :
    (problem.addVariable name cost column.toList).AcceptsOptimum basis.analysis.objectiveValue
      (basis.analysis.values ++ [0]) := by
  have keeps := basis.keeps
  have covered : .ofScalar (problem.sense.orient cost) ≤
      ∑ i, column.get i • problem.rowPrice basis.inverse basis.basicCost i := by
    rw [Problem.sum_smul_rowPrice]
    exact basis.cost_le_of_price stays
  have best := (keeps.prices.addVariable name covered).isBest
    (keeps.allows.addVariable name cost column.get) (by
      simpa only [IndexedProblem.addVariable, Fin.sum_univ_castSucc, Fin.snoc_castSucc,
        Fin.snoc_last, mul_zero, add_zero] using keeps.attained)
  have accepted := best.acceptsOptimum rfl
  rw [IndexedProblem.evaluate_addVariable, IndexedProblem.toProblem_addVariable,
    Problem.toProblem_indexed, ofFn_snoc, ofFn_get_vector, ← basis.values_eq,
    ← basis.acceptsOptimum_self.objective_eq] at accepted
  exact accepted

end OptimalBasis

end LinearProgramming
