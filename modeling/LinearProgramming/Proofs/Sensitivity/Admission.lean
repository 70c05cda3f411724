/-
This file says which numbers a what-if question lets into its problem.

A changed problem is valid exactly when the numbers of the change are finite. A fresh run checks
this, and a question about a new variable checks it first, but an answer with a preserved basis is
given without a check: whether a number that is not finite gets there depends on the comparisons
it passes. This holds of every arithmetic, since only the checks for finite numbers matter.
-/

import Mathlib
import LinearProgramming.Proofs.Sensitivity.WhatIf
import LinearProgramming.Scalar.Binary64

namespace LinearProgramming

variable {α : Type} [Scalar α]

/-! ### Which changed problems are valid -/

theorem all_set_iff {β : Type} {accepts : β → Bool} {list : List β} (all : list.all accepts = true)
    {position : Nat} (inRange : position < list.length) (entry : β) :
    (list.set position entry).all accepts = true ↔ accepts entry = true := by
  rw [List.all_eq_true] at all ⊢
  constructor
  · exact fun changed => changed entry (List.mem_set inRange entry)
  · intro accepted other member
    rcases List.mem_or_eq_of_mem_set member with kept | rfl
    · exact all other kept
    · exact accepted

theorem Constraint.isFinite_iff {constraint : Constraint α} : constraint.isFinite = true ↔
    Scalar.isFinite constraint.rhs = true ∧ constraint.coefficients.all Scalar.isFinite = true :=
  Bool.and_eq_true_iff

namespace Problem.Valid

variable {problem : Problem α} (valid : problem.Valid)

include valid

theorem fits_row (i : Fin problem.numRows) : (problem.row i).Fits problem.numVars :=
  valid.constraints_fit _ (List.get_mem _ i)

theorem replaceRow_iff (i : Fin problem.numRows) {constraint : Constraint α} :
    (problem.replaceRow i constraint).Valid ↔ constraint.Fits problem.numVars := by
  constructor
  · exact fun changed => changed.constraints_fit constraint (List.mem_set i.isLt constraint)
  · intro fits
    refine ⟨valid.variableNames_ne_nil, valid.objective_length, valid.objective_finite,
      fun other member => ?_⟩
    rcases List.mem_or_eq_of_mem_set member with kept | rfl
    · exact valid.constraints_fit other kept
    · exact fits

theorem setRhs_iff (i : Fin problem.numRows) (rhs : α) :
    (problem.setRhs i rhs).Valid ↔ Scalar.isFinite rhs = true := by
  have old := valid.fits_row i
  rw [problem.setRhs_eq_replaceRow, valid.replaceRow_iff]
  constructor
  · exact fun fits => (Constraint.isFinite_iff.1 fits.finite).1
  · exact fun finite =>
      ⟨old.length, Constraint.isFinite_iff.2 ⟨finite, (Constraint.isFinite_iff.1 old.finite).2⟩⟩

theorem setCoefficient_iff (i : Fin problem.numRows) (j : Fin problem.numVars) (coefficient : α) :
    (problem.setCoefficient i j coefficient).Valid ↔ Scalar.isFinite coefficient = true := by
  have old := valid.fits_row i
  obtain ⟨rhsFinite, coefficientsFinite⟩ := Constraint.isFinite_iff.1 old.finite
  have set := all_set_iff coefficientsFinite (j.isLt.trans_eq old.length.symm) coefficient
  rw [problem.setCoefficient_eq_replaceRow, valid.replaceRow_iff, ← set]
  constructor
  · exact fun fits => (Constraint.isFinite_iff.1 fits.finite).2
  · exact fun finite => ⟨(List.length_set ..).trans old.length,
      Constraint.isFinite_iff.2 ⟨rhsFinite, finite⟩⟩

theorem setCost_iff (j : Fin problem.numVars) (cost : α) :
    (problem.setCost j cost).Valid ↔ Scalar.isFinite cost = true := by
  have set := all_set_iff valid.objective_finite
    (j.isLt.trans_eq valid.objective_length.symm) cost
  rw [← set]
  constructor
  · exact fun changed => changed.objective_finite
  · exact fun finite => ⟨valid.variableNames_ne_nil,
      (List.length_set ..).trans valid.objective_length, finite, valid.constraints_fit⟩

theorem addConstraint_iff {constraint : Constraint α}
    (length : constraint.coefficients.length = problem.numVars) :
    (problem.addConstraint constraint).Valid ↔ constraint.isFinite = true := by
  constructor
  · exact fun changed => (changed.constraints_fit constraint
      (List.mem_append_right _ (List.mem_singleton.2 rfl))).finite
  · intro finite
    refine ⟨valid.variableNames_ne_nil, valid.objective_length, valid.objective_finite,
      fun other member => ?_⟩
    rcases List.mem_append.1 member with kept | added
    · exact valid.constraints_fit other kept
    · rw [List.mem_singleton.1 added]
      exact ⟨length, finite⟩

theorem addVariable (name : String) {cost : α} (costFinite : Scalar.isFinite cost = true)
    {column : List α} (columnFinite : column.all Scalar.isFinite = true) :
    (problem.addVariable name cost column).Valid where
  variableNames_ne_nil := List.append_ne_nil_of_right_ne_nil _ (List.cons_ne_nil _ _)
  objective_length := by
    simp [Problem.addVariable, Problem.numVars, valid.objective_length]
  objective_finite := by
    simp only [Problem.addVariable, List.all_append, List.all_cons, List.all_nil, Bool.and_true,
      Bool.and_eq_true]
    exact ⟨valid.objective_finite, costFinite⟩
  constraints_fit constraint member := by
    obtain ⟨position, inRange, rfl⟩ := List.mem_iff_getElem.1 member
    have old := valid.constraints_fit _
      (List.getElem_mem (List.lt_length_left_of_zipWith inRange))
    obtain ⟨rhsFinite, coefficientsFinite⟩ := Constraint.isFinite_iff.1 old.finite
    have entryFinite := List.all_eq_true.1 columnFinite _
      (List.getElem_mem (List.lt_length_right_of_zipWith inRange))
    simp only [Problem.addVariable, List.getElem_zipWith]
    refine ⟨?_, Constraint.isFinite_iff.2 ⟨rhsFinite, ?_⟩⟩
    · simp [Problem.numVars, old.length]
    · simp only [List.all_append, List.all_cons, List.all_nil, Bool.and_true, Bool.and_eq_true]
      exact ⟨coefficientsFinite, entryFinite⟩

end Problem.Valid

/-- A problem that was solved is valid. -/
theorem Solver.valid_of_solve {solver : Solver α} {problem : Problem α} {solution : Solution α}
    (solved : solver.solve problem = .ok solution) : problem.Valid := by
  cases validated : problem.validate with
  | error fault =>
    unfold solve start at solved
    rw [validated] at solved
    cases solved
  | ok evidence => exact evidence.down

/-! ### What an answer lets in -/

namespace Sensitivity

/-- An answered question has a valid problem exactly when the numbers of the change are finite, and
in any case when the problem was solved again. -/
def AdmitsExactly (finite : Bool) (result : Except ProblemError (WhatIfAnswer α)) : Prop :=
  ∀ answer, result = .ok answer →
    (answer.problem.Valid ↔ finite = true) ∧ (answer.isPreserved = false → answer.problem.Valid)

theorem admitsExactly_error (finite : Bool) (fault : ProblemError) :
    AdmitsExactly finite (.error fault : Except ProblemError (WhatIfAnswer α)) :=
  fun _ impossible => nomatch impossible

theorem admitsExactly_bind {β : Type} {finite : Bool} {result : Except ProblemError β}
    {next : β → Except ProblemError (WhatIfAnswer α)}
    (admits : ∀ value, result = .ok value → AdmitsExactly finite (next value)) :
    AdmitsExactly finite (result >>= next) := by
  cases result with
  | error fault => exact admitsExactly_error finite fault
  | ok value => exact admits value rfl

section

variable {changed : Problem α} {finite : Bool} (exactly : changed.Valid ↔ finite = true)

include exactly

theorem admitsExactly_preserve (steps : List (Remark α)) (message : String) (objective : α)
    (values : List α) :
    AdmitsExactly finite (.ok (preserve changed steps message objective values)) := by
  intro answer made
  cases made
  exact ⟨exactly, fun impossible => nomatch impossible⟩

theorem admitsExactly_resolve (analysis : Sensitivity α) (steps : List (Remark α))
    (reason : String) : AdmitsExactly finite (analysis.resolve changed steps reason) := by
  refine admitsExactly_bind fun solution solved => ?_
  intro answer made
  cases made
  exact ⟨exactly, fun _ => Solver.valid_of_solve solved⟩

theorem admitsExactly_changeBasicCost (analysis : Sensitivity α)
    (row : Fin analysis.form.numRows) (cost : BigM α) (steps : List (Remark α)) :
    AdmitsExactly finite (analysis.changeBasicCost row cost changed steps) := by
  unfold changeBasicCost
  dsimp only
  split
  · exact admitsExactly_resolve exactly _ _ _
  · exact admitsExactly_preserve exactly _ _ _ _

end

variable (analysis : Sensitivity α)

theorem changeRhs_admits (number : Nat) (rhs : α) :
    AdmitsExactly (Scalar.isFinite rhs) (analysis.changeRhs number rhs) := by
  refine admitsExactly_bind fun row found => ?_
  obtain rfl := rowIndex_eq_ok found
  have exactly := analysis.valid.setRhs_iff (row.cast analysis.numRows_eq) rhs
  dsimp only
  split
  · exact admitsExactly_preserve exactly _ _ _ _
  · exact admitsExactly_resolve exactly _ _ _

theorem changeCoefficient_admits (rowNumber variableNumber : Nat) (coefficient : α) :
    AdmitsExactly (Scalar.isFinite coefficient)
      (analysis.changeCoefficient rowNumber variableNumber coefficient) := by
  refine admitsExactly_bind fun row foundRow => ?_
  refine admitsExactly_bind fun j foundVariable => ?_
  obtain rfl := rowIndex_eq_ok foundRow
  obtain rfl := variableIndex_eq_ok foundVariable
  have exactly :=
    analysis.valid.setCoefficient_iff (row.cast analysis.numRows_eq) j coefficient
  dsimp only
  split
  · exact admitsExactly_resolve exactly _ _ _
  · split
    · exact admitsExactly_resolve exactly _ _ _
    · exact admitsExactly_preserve exactly _ _ _ _

theorem changeRow_admits (number : Nat) (constraint : Constraint α) :
    AdmitsExactly constraint.isFinite (analysis.changeRow number constraint) := by
  refine admitsExactly_bind fun row foundRow => ?_
  refine admitsExactly_bind fun coefficients foundCoefficients => ?_
  obtain rfl := rowIndex_eq_ok foundRow
  have length : constraint.coefficients.length = analysis.problem.numVars := by
    rw [← newCoefficients_eq_ok foundCoefficients, coefficients.length_toList]
  have exactly : (analysis.problem.replaceRow row constraint).Valid ↔
      constraint.isFinite = true :=
    (analysis.valid.replaceRow_iff (row.cast analysis.numRows_eq)).trans
      ⟨fun fits => fits.finite, fun finite => ⟨length, finite⟩⟩
  dsimp only
  split
  · exact admitsExactly_resolve exactly _ _ _
  · split
    · exact admitsExactly_resolve exactly _ _ _
    · split
      · split
        · exact admitsExactly_resolve exactly _ _ _
        · exact admitsExactly_preserve exactly _ _ _ _
      · exact admitsExactly_resolve exactly _ _ _

theorem changeCost_admits (number : Nat) (coefficient : α) :
    AdmitsExactly (Scalar.isFinite coefficient) (analysis.changeCost number coefficient) := by
  refine admitsExactly_bind fun j found => ?_
  obtain rfl := variableIndex_eq_ok found
  have exactly := analysis.valid.setCost_iff j coefficient
  dsimp only
  split
  · exact admitsExactly_changeBasicCost exactly _ _ _ _
  · split
    · exact admitsExactly_resolve exactly _ _ _
    · exact admitsExactly_preserve exactly _ _ _ _

theorem addConstraint_admits (constraint : Constraint α) :
    AdmitsExactly constraint.isFinite (analysis.addConstraint constraint) := by
  refine admitsExactly_bind fun coefficients found => ?_
  have length : constraint.coefficients.length = analysis.problem.numVars := by
    rw [← newCoefficients_eq_ok found, coefficients.length_toList]
  have exactly := analysis.valid.addConstraint_iff length
  dsimp only
  split
  · exact admitsExactly_preserve exactly _ _ _ _
  · exact admitsExactly_resolve exactly _ _ _

/-- A question about a new variable is answered only for finite numbers. -/
theorem addVariable_admits (name : String) (coefficient : α) (column : List α) :
    AdmitsExactly true (analysis.addVariable name coefficient column) := by
  unfold Sensitivity.addVariable
  split
  · exact admitsExactly_error _ _
  · split
    · rename_i finite
      obtain ⟨costFinite, columnFinite⟩ := Bool.and_eq_true_iff.1 finite
      have exactly : (analysis.problem.addVariable name coefficient column).Valid ↔ true = true :=
        iff_of_true (analysis.valid.addVariable name costFinite columnFinite) rfl
      dsimp only
      split
      · exact admitsExactly_resolve exactly _ _ _
      · exact admitsExactly_preserve exactly _ _ _ _
    · exact admitsExactly_error _ _

/-- What the six questions let in, in every arithmetic. An accepted problem is valid when it was
solved again, and otherwise exactly when the numbers of the change are finite, which a question
about a new variable makes sure of. -/
theorem accepted_isValid_iff (analysis : Sensitivity α) :
    (∀ number rhs, AdmitsExactly (Scalar.isFinite rhs) (analysis.changeRhs number rhs)) ∧
    (∀ rowNumber variableNumber coefficient, AdmitsExactly (Scalar.isFinite coefficient)
      (analysis.changeCoefficient rowNumber variableNumber coefficient)) ∧
    (∀ number constraint,
      AdmitsExactly constraint.isFinite (analysis.changeRow number constraint)) ∧
    (∀ number coefficient,
      AdmitsExactly (Scalar.isFinite coefficient) (analysis.changeCost number coefficient)) ∧
    (∀ constraint, AdmitsExactly constraint.isFinite (analysis.addConstraint constraint)) ∧
    ∀ name coefficient column,
      AdmitsExactly true (analysis.addVariable name coefficient column) :=
  ⟨analysis.changeRhs_admits, analysis.changeCoefficient_admits, analysis.changeRow_admits,
    analysis.changeCost_admits, analysis.addConstraint_admits, analysis.addVariable_admits⟩

/-- A problem in binary floating point with a variable that stays outside the optimal basis. -/
def cappedProblem : Problem Float :=
  ((Problem.withVariables 2).setObjective [1, 0] .maximize).constrain [1, 1] .atMost 4

/-- The statement at a question with a finite number, which is answered with a valid problem. -/
theorem accepted_isValid_iff_cappedProblem :
    ∃ analysis answer, analyze cappedProblem {} = .ok analysis ∧
      analysis.changeRhs 0 5 = .ok answer ∧ answer.isPreserved = true ∧ answer.problem.Valid := by
  have ran : (analyze cappedProblem {} >>= fun analysis =>
      (analysis.changeRhs 0 5).map WhatIfAnswer.isPreserved) = .ok true := by decide +kernel
  have finite : Scalar.isFinite (5 : Float) = true := by decide +kernel
  cases analyzed : analyze cappedProblem {} with
  | error fault =>
    rw [analyzed] at ran
    cases ran
  | ok analysis =>
    rw [analyzed] at ran
    change (analysis.changeRhs 0 5).map WhatIfAnswer.isPreserved = .ok true at ran
    cases asked : analysis.changeRhs 0 5 with
    | error fault =>
      rw [asked] at ran
      cases ran
    | ok answer =>
      rw [asked] at ran
      have exactly := ((accepted_isValid_iff analysis).1 0 5 answer asked).1
      exact ⟨analysis, answer, rfl, asked, Except.ok.inj ran, exactly.2 finite⟩

/-- Questions with an infinity or an undefined number, one for each change that is not checked:
a right-hand side, a coefficient, a constraint, an objective coefficient, a new constraint. -/
def strayQuestions (analysis : Sensitivity Float) :
    List (Except ProblemError (WhatIfAnswer Float)) :=
  [analysis.changeRhs 0 (1 / 0), analysis.changeCoefficient 0 1 (0 / 0),
    analysis.changeRow 0 ⟨"c1", [1, 0 / 0], .atMost, 4⟩, analysis.changeCost 1 (0 / 0),
    analysis.addConstraint ⟨"c2", [1, 0], .atMost, 1 / 0⟩]

/-- Each of these questions is answered with a preserved basis and a problem that is not valid. -/
theorem accepted_strayQuestions :
    ∃ analysis, analyze cappedProblem {} = .ok analysis ∧
      ∀ result ∈ strayQuestions analysis, ∃ answer, result = .ok answer ∧
        answer.isPreserved = true ∧ ¬ answer.problem.Valid := by
  have ran : (analyze cappedProblem {}).map (fun analysis =>
      (strayQuestions analysis).map fun result => result.map fun answer =>
        (answer.isPreserved, answer.problem.fault?.isSome)) =
      .ok (List.replicate 5 (.ok (true, true))) := by decide +kernel
  cases analyzed : analyze cappedProblem {} with
  | error fault =>
    rw [analyzed] at ran
    cases ran
  | ok analysis =>
    rw [analyzed] at ran
    refine ⟨analysis, rfl, fun result member => ?_⟩
    have answered := List.map_eq_replicate_iff.1 (Except.ok.inj ran) result member
    cases result with
    | error fault => cases answered
    | ok answer =>
      obtain ⟨preserved, faulty⟩ := Prod.mk.inj (Except.ok.inj answered)
      refine ⟨answer, rfl, preserved, fun valid => ?_⟩
      rw [Problem.fault?_eq_none_iff.2 valid] at faulty
      cases faulty

end Sensitivity

end LinearProgramming
