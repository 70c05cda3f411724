/-
This file compares the interval that an analysis reports for an objective coefficient with the
coefficients under which the basis is preserved when the question is put.

Moving the cost of a variable moves the entries of the objective row: that of the variable itself
where it is outside the basis, and the entries of all candidates, by their entries in its row, where
it is basic. The question compares whole entries with zero, a penalty before the value, and the
interval is cut from the values alone. So whatever the interval encloses preserves the basis. The
converse, and that the interval encloses the present coefficient, need entries without penalty,
which is how they are unless an artificial column stays basic at zero.
-/

import Mathlib
import LinearProgramming.Proofs.Sensitivity.Interval
import LinearProgramming.Proofs.Sensitivity.WhatIf

namespace LinearProgramming

namespace BigM

/-- A number that is not negative stays so under a change that its value allows. -/
theorem nonneg_add_ofScalar {number : BigM Rat} (nonneg : 0 ≤ number) {change : Rat}
    (allowed : 0 ≤ number.value + change) : 0 ≤ number + ofScalar change := by
  rcases le_iff.1 nonneg with positive | ⟨zero, _⟩
  · exact le_iff.2 (Or.inl (by simpa using positive))
  · exact le_iff.2 (Or.inr ⟨by simpa using zero, by simpa using allowed⟩)

/-- Without penalty the value decides. -/
theorem nonneg_add_ofScalar_iff {number : BigM Rat} (noPenalty : number.penalty = 0)
    (change : Rat) : 0 ≤ number + ofScalar change ↔ 0 ≤ number.value + change := by
  rw [le_iff]
  simp [noPenalty]

end BigM

/-- A number lies in the reported interval of a coefficient. -/
def ObjectiveRange.Contains (range : ObjectiveRange Rat) (number : Rat) : Prop :=
  Sensitivity.Encloses (range.lower, range.upper) number

namespace Sensitivity

/-- No column that a change may bring into the basis is kept out by a penalty. -/
def FreeOfPenalty (analysis : Sensitivity Rat) : Prop :=
  ∀ column ∈ analysis.candidates, (analysis.tableau.objectiveEntry column).penalty = 0

/-! ### Preserved answers -/

/-- The question was answered and the basis is preserved. -/
def Preserves (result : Except ProblemError (WhatIfAnswer Rat)) : Prop :=
  result.map WhatIfAnswer.isPreserved = .ok true

theorem preserves_preserve (changed : Problem Rat) (steps : List (Remark Rat)) (message : String)
    (objective : Rat) (values : List Rat) :
    Preserves (.ok (preserve changed steps message objective values)) := rfl

theorem not_preserves_resolve (analysis : Sensitivity Rat) (changed : Problem Rat)
    (steps : List (Remark Rat)) (reason : String) :
    ¬ Preserves (analysis.resolve changed steps reason) := by
  unfold Preserves resolve
  cases analysis.solver.solve changed with
  | error fault => exact nofun
  | ok solution => exact fun impossible => Bool.false_ne_true (Except.ok.inj impossible)

/-- The search ends without a find exactly when none of the reduced costs improves the
objective. -/
theorem firstImproving_eq_none_iff (analysis : Sensitivity Rat) (formula : String)
    (reducedCosts : List (String × BigM Rat)) :
    (analysis.firstImproving formula reducedCosts).2 = none ↔
      ∀ entry ∈ reducedCosts, ¬ analysis.improves entry.2 = true := by
  refine ⟨not_improves_of_firstImproving, fun stay => ?_⟩
  induction reducedCosts with
  | nil => rfl
  | cons first rest inductionHypothesis =>
    obtain ⟨name, reduced⟩ := first
    obtain ⟨stays, restStay⟩ := List.forall_mem_cons.1 stay
    unfold firstImproving
    rw [if_neg stays]
    exact inductionHypothesis restStay

/-- Another cost of a basic variable preserves the basis exactly when no candidate improves the
objective at the changed costs. -/
theorem preserves_changeBasicCost_iff (analysis : Sensitivity Rat)
    (row : Fin analysis.form.numRows) (cost : BigM Rat) (changed : Problem Rat)
    (steps : List (Remark Rat)) :
    Preserves (analysis.changeBasicCost row cost changed steps) ↔
      ∀ column ∈ analysis.candidates, ¬ analysis.improves
        (reducedCost (analysis.form.costs.get column) (analysis.tableau.column column)
          (replaceEntry analysis.basicCosts row cost)) = true := by
  have settled := analysis.firstImproving_eq_none_iff "c - C_B'·B⁻¹a"
    (analysis.candidates.map fun column =>
      (analysis.form.names.get column, reducedCost (analysis.form.costs.get column)
        (analysis.tableau.column column) (replaceEntry analysis.basicCosts row cost)))
  rw [List.forall_mem_map] at settled
  rw [← settled]
  unfold changeBasicCost
  dsimp only
  split
  · rename_i name found
    rw [found]
    exact iff_of_false (not_preserves_resolve _ _ _ _) nofun
  · rename_i found
    rw [found]
    exact iff_of_true (preserves_preserve _ _ _ _ _) rfl

section Asked

variable (analysis : Sensitivity Rat) (j : Fin analysis.problem.numVars) (number : Rat)

theorem variableIndex_val : analysis.variableIndex j = .ok j := dif_pos j.isLt

/-- Another cost of a variable outside the basis preserves the basis exactly when the variable does
not improve the objective. -/
theorem preserves_changeCost_of_outside (outside : analysis.tableau.basicRow? j = none) :
    Preserves (analysis.changeCost j number) ↔ ¬ analysis.improves
      (reducedCost (.ofScalar (analysis.problem.sense.orient number))
        (analysis.tableau.column (analysis.variableColumn j)) analysis.basicCosts) = true := by
  unfold changeCost
  rw [variableIndex_val]
  simp only [bind, Except.bind]
  rw [outside]
  dsimp only
  split
  · rename_i improving
    exact iff_of_false (not_preserves_resolve _ _ _ _) (not_not.2 improving)
  · rename_i stays
    exact iff_of_true (preserves_preserve _ _ _ _ _) stays

theorem changeCost_of_inside {row : Fin analysis.form.numRows}
    (inside : analysis.tableau.basicRow? j = some row) :
    ∃ steps, analysis.changeCost j number = analysis.changeBasicCost row
      (.ofScalar (analysis.problem.sense.orient number)) (analysis.problem.setCost j number)
      steps := by
  unfold changeCost
  rw [variableIndex_val]
  simp only [bind, Except.bind]
  rw [inside]
  exact ⟨_, rfl⟩

/-- The reported interval encloses a number when the interval for making the objective large
encloses its oriented value. -/
theorem contains_of_outside (outside : analysis.tableau.basicRow? j = none) :
    (analysis.objectiveRange j).Contains number ↔
      Encloses (.negInf, .finite
        (analysis.problem.sense.orient (analysis.problem.objectiveCoefficient analysis.valid j) +
          (analysis.tableau.objectiveEntry (analysis.variableColumn j)).value))
        (analysis.problem.sense.orient number) := by
  unfold ObjectiveRange.Contains objectiveRange
  rw [outside]
  cases analysis.problem.sense with
  | maximize => rfl
  | minimize =>
    exact encloses_reflected (.negInf, .finite
      (-analysis.problem.objectiveCoefficient analysis.valid j +
        (analysis.tableau.objectiveEntry (analysis.variableColumn j)).value)) number

theorem contains_of_inside {row : Fin analysis.form.numRows}
    (inside : analysis.tableau.basicRow? j = some row) :
    (analysis.objectiveRange j).Contains number ↔
      Encloses (analysis.costInterval row) (analysis.problem.sense.orient number -
        analysis.problem.sense.orient
          (analysis.problem.objectiveCoefficient analysis.valid j)) := by
  rw [← encloses_shift]
  unfold ObjectiveRange.Contains objectiveRange
  rw [inside]
  cases analysis.problem.sense with
  | maximize => rfl
  | minimize => exact encloses_reflected _ number

end Asked

end Sensitivity

/-! ### Both sides by candidates -/

namespace OptimalBasis

open Sensitivity

variable {problem : Problem Rat} (basis : OptimalBasis problem)

theorem mem_candidates_iff {column : Fin problem.numColumns} :
    column ∈ basis.analysis.candidates ↔ ¬ basis.tableau.isBasic column = true ∧
      ¬ (problem.columnVector.get column).isArtificial = true := by
  refine (List.mem_filter.trans (and_iff_right (List.mem_finRange column))).trans ?_
  rw [Bool.and_eq_true, Bool.not_eq_true', Bool.not_eq_true', Bool.eq_false_iff, Bool.eq_false_iff]
  rfl

/-- The cost interval of a row encloses a move exactly when the values under all candidates with an
entry in the row stay not negative. -/
theorem encloses_costInterval_iff (row : Fin problem.numRows) (move : Rat) :
    Encloses (basis.analysis.costInterval row) move ↔
      ∀ column ∈ basis.analysis.candidates, basis.tableau.entry row column ≠ 0 →
        0 ≤ (basis.tableau.objectiveEntry column).value +
          basis.tableau.entry row column * move := by
  have exact : basis.analysis.tolerance = 0 := basis.exact
  unfold costInterval
  rw [exact]
  exact (encloses_narrowed_iff (basis.tableau.entry row)
    (fun column => (basis.tableau.objectiveEntry column).value) basis.analysis.candidates
    (.negInf, .posInf) move).trans (and_iff_right (encloses_unbounded move))

/-- What entries are worth after one cost is replaced. -/
theorem sum_smul_update (entries : Fin problem.numRows → Rat)
    (costs : Fin problem.numRows → BigM Rat) (row : Fin problem.numRows) (cost : BigM Rat) :
    ∑ i, entries i • Function.update costs row cost i =
      ∑ i, entries i • costs i + entries row • (cost - costs row) := by
  have replaced : ∀ i, Function.update costs row cost i =
      costs i + if i = row then cost - costs row else 0 := by
    intro i
    rw [Function.update_apply]
    by_cases same : i = row
    · rw [if_pos same, if_pos same, same, add_sub_cancel]
    · rw [if_neg same, if_neg same, add_zero]
  simp only [replaced, smul_add, smul_ite, smul_zero, Finset.sum_add_distrib, Finset.sum_ite_eq',
    Finset.mem_univ, if_true]

/-- The reduced cost of a column of the tableau at given costs of the basic columns. -/
theorem reducedCost_column (cost : BigM Rat) (column : Fin problem.numColumns)
    {basicCosts : Vector (BigM Rat) problem.numRows} {costs : Fin problem.numRows → BigM Rat}
    (same : basicCosts.get = costs) :
    reducedCost cost (basis.tableau.column column) basicCosts =
      cost - ∑ i, basis.tableau.entry i column • costs i := by
  refine (reducedCost_eq _ _ _).trans (congrArg (cost - ·) (Finset.sum_congr rfl fun i _ => ?_))
  exact congrArg₂ (· • ·) (get_vectorOfFn _ i) (congrFun same i)

/-- The reduced cost of a column when a basic variable gets another cost: the negated entry of the
objective row, moved by the entry of the column in the row of the variable. -/
theorem reducedCost_replaceEntry {j : Fin problem.numVars} {row : Fin problem.numRows}
    (own : basis.tableau.basis.get row = j.castLE problem.numVars_le_numColumns)
    (cost : Rat) (column : Fin problem.numColumns) :
    reducedCost (basis.analysis.form.costs.get column) (basis.tableau.column column)
        (replaceEntry basis.analysis.basicCosts row (.ofScalar cost)) =
      -(basis.tableau.objectiveEntry column + .ofScalar (basis.tableau.entry row column *
        (cost - problem.sense.orient (problem.objectiveCoefficient basis.valid j)))) := by
  have old : basis.basicCost row =
      .ofScalar (problem.sense.orient (problem.objectiveCoefficient basis.valid j)) := by
    unfold basicCost
    rw [own, problem.get_columnVector_decision]
    rfl
  have costs : (replaceEntry basis.analysis.basicCosts row (.ofScalar cost)).get =
      Function.update basis.basicCost row (.ofScalar cost) :=
    (get_replaceEntry_eq_update _ row _).trans
      (congrArg (fun costs : Fin problem.numRows → BigM Rat =>
        Function.update costs row (.ofScalar cost)) (funext basis.get_basicCosts))
  have moved : basis.tableau.entry row column • (.ofScalar cost - basis.basicCost row) =
      .ofScalar (basis.tableau.entry row column *
        (cost - problem.sense.orient (problem.objectiveCoefficient basis.valid j))) := by
    rw [old]
    exact BigM.ext_parts (by simp) (by simp)
  refine (basis.reducedCost_column _ column costs).trans ?_
  rw [sum_smul_update, moved, basis.objectiveEntry_eq]
  refine (congrArg (· - _) (basis.get_costs column)).trans ?_
  abel

/-- The reduced cost of a variable outside the basis under another cost: the negated entry of the
objective row, moved by the change. -/
theorem reducedCost_outside (j : Fin problem.numVars) (cost : Rat) :
    reducedCost (.ofScalar cost) (basis.tableau.column (j.castLE problem.numVars_le_numColumns))
        basis.analysis.basicCosts =
      -(basis.tableau.objectiveEntry (j.castLE problem.numVars_le_numColumns) +
        .ofScalar (problem.sense.orient (problem.objectiveCoefficient basis.valid j) - cost)) := by
  have own : problem.sense.columnCost (problem.objectiveCoefficient basis.valid)
      (problem.columnVector.get (j.castLE problem.numVars_le_numColumns)) =
        .ofScalar (problem.sense.orient (problem.objectiveCoefficient basis.valid j)) := by
    rw [problem.get_columnVector_decision]
    rfl
  have split : (.ofScalar (problem.sense.orient (problem.objectiveCoefficient basis.valid j) -
      cost) : BigM Rat) =
        .ofScalar (problem.sense.orient (problem.objectiveCoefficient basis.valid j)) -
          .ofScalar cost :=
    BigM.ext_parts (by simp) (by simp)
  refine (basis.reducedCost_column _ _ (funext basis.get_basicCosts)).trans ?_
  rw [split, basis.objectiveEntry_eq, own]
  abel

/-- A column does not improve the objective exactly when the number whose negative is its reduced
cost is not negative. -/
theorem not_improves_neg_iff (number : BigM Rat) :
    ¬ basis.analysis.improves (-number) = true ↔ 0 ≤ number := by
  rw [basis.improves_iff, not_lt, neg_nonpos]

/-! ### A variable outside the basis, and a basic one -/

/-- How far the cost of a variable moves, in the form that is made large. -/
def costMove (j : Fin problem.numVars) (number : Rat) : Rat :=
  problem.sense.orient number - problem.sense.orient (problem.objectiveCoefficient basis.valid j)

theorem costMove_self (j : Fin problem.numVars) :
    basis.costMove j (problem.objectiveCoefficient basis.valid j) = 0 := sub_self _

section Asked

variable {j : Fin problem.numVars} (number : Rat)

theorem preserves_outside_iff (outside : basis.tableau.basicRow? j = none) :
    Preserves (basis.analysis.changeCost j number) ↔
      0 ≤ basis.tableau.objectiveEntry (j.castLE problem.numVars_le_numColumns) +
        .ofScalar (-basis.costMove j number) := by
  refine (preserves_changeCost_of_outside basis.analysis j number outside).trans ?_
  refine (congrArg (fun reduced => ¬ basis.analysis.improves reduced = true)
    (basis.reducedCost_outside j (problem.sense.orient number))).to_iff.trans ?_
  rw [basis.not_improves_neg_iff, costMove, neg_sub]

theorem preserves_inside_iff {row : Fin problem.numRows}
    (inside : basis.tableau.basicRow? j = some row) :
    Preserves (basis.analysis.changeCost j number) ↔
      ∀ column ∈ basis.analysis.candidates, 0 ≤ basis.tableau.objectiveEntry column +
        .ofScalar (basis.tableau.entry row column * basis.costMove j number) := by
  have own : basis.tableau.basis.get row = j.castLE problem.numVars_le_numColumns :=
    Fin.ext (Tableau.basis_of_basicRow? inside)
  obtain ⟨steps, asked⟩ := changeCost_of_inside basis.analysis j number inside
  rw [asked]
  refine (preserves_changeBasicCost_iff _ _ _ _ _).trans (forall₂_congr fun column _ => ?_)
  refine (congrArg (fun reduced => ¬ basis.analysis.improves reduced = true)
    (basis.reducedCost_replaceEntry own (problem.sense.orient number) column)).to_iff.trans ?_
  exact basis.not_improves_neg_iff _

theorem contains_outside_iff (outside : basis.tableau.basicRow? j = none) :
    (basis.analysis.objectiveRange j).Contains number ↔
      0 ≤ (basis.tableau.objectiveEntry (j.castLE problem.numVars_le_numColumns)).value +
        -basis.costMove j number := by
  refine (contains_of_outside basis.analysis j number outside).trans
    ((and_iff_right rfl).trans ((Extended.isReachedDownBy_finite _ _).trans ?_))
  show problem.sense.orient number ≤
    problem.sense.orient (problem.objectiveCoefficient basis.valid j) +
      (basis.tableau.objectiveEntry (j.castLE problem.numVars_le_numColumns)).value ↔ _
  unfold costMove
  constructor <;> intro bound <;> linarith

theorem contains_inside_iff {row : Fin problem.numRows}
    (inside : basis.tableau.basicRow? j = some row) :
    (basis.analysis.objectiveRange j).Contains number ↔
      ∀ column ∈ basis.analysis.candidates, basis.tableau.entry row column ≠ 0 →
        0 ≤ (basis.tableau.objectiveEntry column).value +
          basis.tableau.entry row column * basis.costMove j number :=
  (contains_of_inside basis.analysis j number inside).trans
    (basis.encloses_costInterval_iff row (basis.costMove j number))

/-- What the reported interval contains preserves the basis. -/
theorem preserves_of_contains (contains : (basis.analysis.objectiveRange j).Contains number) :
    Preserves (basis.analysis.changeCost j number) := by
  cases found : basis.tableau.basicRow? j with
  | none =>
    rw [basis.preserves_outside_iff number found]
    rw [basis.contains_outside_iff number found] at contains
    exact BigM.nonneg_add_ofScalar (basis.objective_nonneg _) contains
  | some row =>
    rw [basis.preserves_inside_iff number found]
    rw [basis.contains_inside_iff number found] at contains
    intro column candidate
    by_cases flat : basis.tableau.entry row column = 0
    · rw [flat, zero_mul, BigM.ofScalar_zero, add_zero]
      exact basis.objective_nonneg column
    · exact BigM.nonneg_add_ofScalar (basis.objective_nonneg column)
        (contains column candidate flat)

/-- Without penalties the reported interval contains whatever preserves the basis. -/
theorem contains_of_preserves (free : basis.analysis.FreeOfPenalty)
    (preserves : Preserves (basis.analysis.changeCost j number)) :
    (basis.analysis.objectiveRange j).Contains number := by
  cases found : basis.tableau.basicRow? j with
  | none =>
    rw [basis.preserves_outside_iff number found] at preserves
    have candidate : j.castLE problem.numVars_le_numColumns ∈ basis.analysis.candidates := by
      refine basis.mem_candidates_iff.2
        ⟨Tableau.not_isBasic_of_basicRow?_eq_none found, fun artificial => ?_⟩
      rw [problem.get_columnVector_decision] at artificial
      exact Bool.false_ne_true artificial
    rw [basis.contains_outside_iff number found]
    exact (BigM.nonneg_add_ofScalar_iff (free _ candidate) _).1 preserves
  | some row =>
    rw [basis.preserves_inside_iff number found] at preserves
    rw [basis.contains_inside_iff number found]
    exact fun column candidate _ =>
      (BigM.nonneg_add_ofScalar_iff (free column candidate) _).1 (preserves column candidate)

/-- The basis is preserved under the present coefficient. -/
theorem preserves_self (j : Fin problem.numVars) :
    Preserves (basis.analysis.changeCost j (problem.objectiveCoefficient basis.valid j)) := by
  cases found : basis.tableau.basicRow? j with
  | none =>
    rw [basis.preserves_outside_iff _ found, basis.costMove_self, neg_zero, BigM.ofScalar_zero,
      add_zero]
    exact basis.objective_nonneg _
  | some row =>
    rw [basis.preserves_inside_iff _ found]
    intro column _
    rw [basis.costMove_self, mul_zero, BigM.ofScalar_zero, add_zero]
    exact basis.objective_nonneg column

end Asked

/-- Where no artificial column is basic, no entry of the objective row under a candidate has a
penalty. -/
theorem freeOfPenalty (noArtificial : ∀ row,
    ¬ (problem.columnVector.get (basis.tableau.basis.get row)).isArtificial = true) :
    basis.analysis.FreeOfPenalty := by
  have penalty : ∀ column : Fin problem.numColumns,
      ¬ (problem.columnVector.get column).isArtificial = true →
        (problem.sense.columnCost (problem.objectiveCoefficient basis.valid)
          (problem.columnVector.get column)).penalty = 0 := by
    intro column notArtificial
    rw [← Problem.cost_eq_columnCost, Problem.penalty_cost, if_neg notArtificial]
  intro (column : Fin problem.numColumns) candidate
  have own := penalty column (basis.mem_candidates_iff.1 candidate).2
  have basic : ∀ row, (basis.tableau.entry row column • basis.basicCost row).penalty = 0 := by
    intro row
    rw [BigM.penalty_smul, basicCost, penalty _ (noArtificial row), mul_zero]
  show (basis.tableau.objectiveEntry column).penalty = 0
  rw [basis.objectiveEntry_eq, BigM.penalty_sub, own, BigM.penalty_sum,
    Finset.sum_eq_zero fun row _ => basic row, sub_zero]

theorem getElem?_objectiveRanges {j : Nat} (inRange : j < problem.numVars) :
    basis.analysis.objectiveRanges[j]? = some (basis.analysis.objectiveRange ⟨j, inRange⟩) := by
  have listed : (List.finRange problem.numVars)[j]? = some ⟨j, inRange⟩ := by
    simp [inRange]
  unfold objectiveRanges
  rw [List.getElem?_map]
  exact congrArg (Option.map basis.analysis.objectiveRange) listed

theorem getElem?_objective {j : Nat} (inRange : j < problem.numVars) :
    problem.objective[j]? = some (problem.objectiveCoefficient basis.valid ⟨j, inRange⟩) :=
  List.getElem?_eq_getElem (inRange.trans_eq basis.valid.objective_length.symm)

end OptimalBasis

namespace Sensitivity

/-- The interval of an objective coefficient against the question about it. When an analysis is from
a run without tolerance, every variable has an interval, whatever it contains preserves the basis,
and so does the present coefficient. Where no column is kept out by a penalty, and so wherever no
artificial column is basic, the interval contains exactly the coefficients that preserve the basis,
the present one among them. -/
theorem objectiveRanges_agree (problem : Problem Rat) (analysis : Sensitivity Rat)
    (made : OfExactRun problem analysis) (j : Nat) (inRange : j < problem.numVars) :
    ∃ range, analysis.objectiveRanges[j]? = some range ∧
      problem.objective[j]? = some range.current ∧
      (∀ number, range.Contains number → Preserves (analysis.changeCost j number)) ∧
      Preserves (analysis.changeCost j range.current) ∧
      (analysis.FreeOfPenalty →
        (∀ number, range.Contains number ↔ Preserves (analysis.changeCost j number)) ∧
          range.Contains range.current) ∧
      ((∀ row, analysis.form.isArtificial (analysis.tableau.basis.get row) = false) →
        analysis.FreeOfPenalty) := by
  obtain ⟨basis, rfl⟩ := made.exists_basis
  have self := basis.preserves_self ⟨j, inRange⟩
  have back : basis.analysis.FreeOfPenalty → ∀ number,
      Preserves (basis.analysis.changeCost j number) →
        (basis.analysis.objectiveRange ⟨j, inRange⟩).Contains number :=
    fun free number => basis.contains_of_preserves (j := ⟨j, inRange⟩) number free
  refine ⟨_, basis.getElem?_objectiveRanges inRange, basis.getElem?_objective inRange,
    fun number => basis.preserves_of_contains number, self, fun free => ⟨fun number => ?_, ?_⟩,
    fun noArtificial => basis.freeOfPenalty fun row => Bool.eq_false_iff.1 (noArtificial row)⟩
  · exact ⟨basis.preserves_of_contains number, back free number⟩
  · exact back free _ self

/-- The statement at a basic variable. -/
theorem objectiveRanges_agree_idleVariableProblem :
    ∃ analysis range, OfExactRun idleVariableProblem analysis ∧ 0 < idleVariableProblem.numVars ∧
      (∀ row, analysis.form.isArtificial (analysis.tableau.basis.get row) = false) ∧
      analysis.objectiveRanges[0]? = some range ∧ range.basic = true ∧
      (range.lower, range.upper) = (.finite (5 / 3), .posInf) ∧
      (∀ number, range.Contains number ↔ Preserves (analysis.changeCost 0 number)) ∧
      range.Contains range.current := by
  have inspected : (analyze idleVariableProblem { tolerance := 0 }).map (fun analysis =>
      (analysis.tableau.basis.toList.any analysis.form.isArtificial,
        analysis.objectiveRanges[0]?.map fun range => (range.basic, range.lower, range.upper))) =
      .ok (false, some (true, .finite (5 / 3), .posInf)) := by
    decide +kernel
  cases analyzed : analyze idleVariableProblem { tolerance := 0 } with
  | error fault =>
    rw [analyzed] at inspected
    cases inspected
  | ok analysis =>
    rw [analyzed] at inspected
    have made := ofExactRun_of_analyze rfl analyzed
    have inRange : 0 < idleVariableProblem.numVars := by decide
    obtain ⟨settled, ends⟩ := Prod.mk.inj (Except.ok.inj inspected)
    have noArtificial : ∀ row,
        analysis.form.isArtificial (analysis.tableau.basis.get row) = false := fun row =>
      Bool.not_eq_true _ ▸ List.any_eq_false.1 settled _
        (Vector.mem_toList_iff.2 (Vector.getElem_mem row.isLt))
    obtain ⟨range, listed, _, _, _, agrees, free⟩ :=
      objectiveRanges_agree idleVariableProblem analysis made 0 inRange
    rw [listed] at ends
    obtain ⟨basic, ends⟩ := Prod.mk.inj (Option.some.inj ends)
    obtain ⟨iff, current⟩ := agrees (free noArtificial)
    exact ⟨analysis, range, made, inRange, noArtificial, listed, basic, ends, iff, current⟩

/-- A problem whose second variable is held at zero by an equation, so that the artificial column of
that row stays basic at zero. -/
def pinnedVariableProblem : Problem Rat :=
  (((Problem.withVariables 2).setObjective [1, 5] .maximize).constrain [1, 1] .atMost
    4).constrain [0, -1] .equal 0

/-- The intervals of this problem do not contain the present coefficients, under which the basis is
preserved. -/
theorem objectiveRanges_of_pinnedVariableProblem :
    ∃ analysis first second, analyze pinnedVariableProblem { tolerance := 0 } = .ok analysis ∧
      analysis.objectiveRanges = [first, second] ∧
      Preserves (analysis.changeCost 0 first.current) ∧ ¬ first.Contains first.current ∧
      Preserves (analysis.changeCost 1 second.current) ∧ ¬ second.Contains second.current := by
  have inspected : (analyze pinnedVariableProblem { tolerance := 0 }).map (fun analysis =>
      (analysis.objectiveRanges.map fun range => (range.current, range.lower, range.upper),
        (analysis.changeCost 0 1).map WhatIfAnswer.isPreserved,
        (analysis.changeCost 1 5).map WhatIfAnswer.isPreserved)) =
      .ok ([(1, .finite 5, .posInf), (5, .negInf, .finite 1)], .ok true, .ok true) := by
    decide +kernel
  cases analyzed : analyze pinnedVariableProblem { tolerance := 0 } with
  | error fault =>
    rw [analyzed] at inspected
    cases inspected
  | ok analysis =>
    rw [analyzed] at inspected
    obtain ⟨ranges, preserved⟩ := Prod.mk.inj (Except.ok.inj inspected)
    obtain ⟨first, second, listed⟩ := List.length_eq_two.1
      ((List.length_map _).symm.trans (congrArg List.length ranges))
    rw [listed] at ranges
    simp only [List.map_cons, List.map_nil, List.cons.injEq, Prod.mk.injEq, and_true] at ranges
    obtain ⟨⟨current, lower, _⟩, currentSecond, _, upper⟩ := ranges
    obtain ⟨firstPreserved, secondPreserved⟩ := Prod.mk.inj preserved
    refine ⟨analysis, first, second, rfl, listed, current ▸ firstPreserved, fun contains => ?_,
      currentSecond ▸ secondPreserved, fun contains => ?_⟩
    · have reached := contains.1
      rw [lower, current, Extended.isReachedBy_finite] at reached
      norm_num at reached
    · have reached := contains.2
      rw [upper, currentSecond, Extended.isReachedDownBy_finite] at reached
      norm_num at reached

end Sensitivity

end LinearProgramming
