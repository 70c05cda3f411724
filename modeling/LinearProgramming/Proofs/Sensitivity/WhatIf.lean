/-
This file proves that a preserved basis is really optimal.

An answer either comes from a fresh run or says that the old basis is preserved. Each of the six
questions gets to the second answer in its own way, and each way is followed through its checks to
what keeps the basis. The six results are then one theorem about any question.
-/

import Mathlib
import LinearProgramming.Proofs.Sensitivity.KeptOptimum

namespace LinearProgramming

namespace Sensitivity

/-! ### Sound results -/

/-- A result is sound for a changed problem when every answer is about that problem, and a
preserved optimum is one that the problem accepts. -/
def Sound (changed : Problem Rat) (result : Except ProblemError (WhatIfAnswer Rat)) : Prop :=
  ∀ answer, result = .ok answer → answer.problem = changed ∧
    ∀ objective values, answer.optimum = .preserved objective values →
      changed.AcceptsOptimum objective values

theorem sound_error (changed : Problem Rat) (fault : ProblemError) :
    Sound changed (.error fault) := fun _ impossible => nomatch impossible

theorem sound_bind {β : Type} {changed : Problem Rat} {result : Except ProblemError β}
    {next : β → Except ProblemError (WhatIfAnswer Rat)}
    (sound : ∀ value, result = .ok value → Sound changed (next value)) :
    Sound changed (result >>= next) := by
  cases result with
  | error fault => exact sound_error changed fault
  | ok value => exact sound value rfl

theorem sound_preserve {changed : Problem Rat} {objective : Rat} {values : List Rat}
    (accepted : changed.AcceptsOptimum objective values) (steps : List (Remark Rat))
    (message : String) : Sound changed (.ok (preserve changed steps message objective values)) := by
  intro answer made
  cases made
  refine ⟨rfl, fun objective values preserved => ?_⟩
  cases preserved
  exact accepted

/-- A fresh run preserves nothing. -/
theorem sound_resolve (analysis : Sensitivity Rat) (changed : Problem Rat)
    (steps : List (Remark Rat)) (reason : String) :
    Sound changed (analysis.resolve changed steps reason) := by
  refine sound_bind fun solution _ => ?_
  intro answer made
  cases made
  exact ⟨rfl, fun objective values impossible => nomatch impossible⟩

/-! ### Looking things up -/

section Lookups

variable {α : Type} [Scalar α] {analysis : Sensitivity α}

theorem rowIndex_eq_ok {number : Nat}
    {row : Fin analysis.form.numRows} (found : analysis.rowIndex number = .ok row) :
    row.val = number := by
  unfold rowIndex at found
  split at found
  · cases found
    rfl
  · cases found

theorem variableIndex_eq_ok {number : Nat}
    {j : Fin analysis.problem.numVars} (found : analysis.variableIndex number = .ok j) :
    j.val = number := by
  unfold variableIndex at found
  split at found
  · cases found
    rfl
  · cases found

theorem toList_of_vectorOf? {β : Type} {length : Nat} {list : List β} {vector : Vector β length}
    (made : vectorOf? length list = some vector) : vector.toList = list := by
  unfold vectorOf? at made
  split at made
  · cases made
    rfl
  · cases made

theorem newCoefficients_eq_ok {constraint : Constraint α}
    {coefficients : Vector α analysis.problem.numVars}
    (found : analysis.newCoefficients constraint = .ok coefficients) :
    coefficients.toList = constraint.coefficients := by
  unfold newCoefficients at found
  split at found
  · rename_i same
    cases found
    exact toList_of_vectorOf? same
  · cases found

end Lookups

/-- Where the search ends without a find, none of the reduced costs improves the objective. -/
theorem not_improves_of_firstImproving {analysis : Sensitivity Rat} {formula : String}
    {reducedCosts : List (String × BigM Rat)}
    (none : (analysis.firstImproving formula reducedCosts).2 = none) :
    ∀ entry ∈ reducedCosts, ¬ analysis.improves entry.2 = true := by
  induction reducedCosts with
  | nil => exact fun _ impossible => absurd impossible List.not_mem_nil
  | cons first rest inductionHypothesis =>
    obtain ⟨name, reduced⟩ := first
    unfold firstImproving at none
    dsimp only at none
    split at none
    · cases none
    · rename_i stays
      intro entry member
      rcases List.mem_cons.1 member with rfl | later
      · exact stays
      · exact inductionHypothesis none entry later

/-- The old values are preserved under another cost of a basic variable only when no candidate
improves the objective. -/
theorem sound_changeBasicCost {analysis : Sensitivity Rat} {row : Fin analysis.form.numRows}
    {cost : BigM Rat} {changed : Problem Rat}
    (accepted : (∀ column ∈ analysis.candidates, ¬ analysis.improves
        (reducedCost (analysis.form.costs.get column) (analysis.tableau.column column)
          (replaceEntry analysis.basicCosts row cost)) = true) →
      changed.AcceptsOptimum (changed.evaluate analysis.values) analysis.values)
    (steps : List (Remark Rat)) :
    Sound changed (analysis.changeBasicCost row cost changed steps) := by
  unfold changeBasicCost
  dsimp only
  split
  · exact sound_resolve _ _ _ _
  · rename_i settled
    refine sound_preserve (accepted fun column candidate => ?_) _ _
    exact not_improves_of_firstImproving settled
      (analysis.form.names.get column, reducedCost (analysis.form.costs.get column)
        (analysis.tableau.column column) (replaceEntry analysis.basicCosts row cost))
      (List.mem_map.2 ⟨column, candidate, rfl⟩)

end Sensitivity

/-! ### The questions one by one -/

namespace OptimalBasis

open Sensitivity

variable {problem : Problem Rat} (basis : OptimalBasis problem)

theorem changeRhs_sound (number : Nat) (rhs : Rat) :
    Sound (problem.setRhs number rhs) (basis.analysis.changeRhs number rhs) := by
  refine sound_bind fun (row : Fin problem.numRows) found => ?_
  obtain rfl : row.val = number := rowIndex_eq_ok found
  dsimp only
  split
  · rename_i feasible
    refine sound_preserve ?_ _ _
    rw [problem.setRhs_eq_replaceRow]
    exact basis.acceptsOptimum_replaceRow (basis.toList_rowCoefficients row) rfl feasible
      fun j => Or.inl (basis.get_rowCoefficients row j)
  · exact sound_resolve _ _ _ _

theorem changeCoefficient_sound (rowNumber variableNumber : Nat) (coefficient : Rat) :
    Sound (problem.setCoefficient rowNumber variableNumber coefficient)
      (basis.analysis.changeCoefficient rowNumber variableNumber coefficient) := by
  refine sound_bind fun (row : Fin problem.numRows) foundRow => ?_
  refine sound_bind fun (j : Fin problem.numVars) foundVariable => ?_
  obtain rfl : row.val = rowNumber := rowIndex_eq_ok foundRow
  obtain rfl : j.val = variableNumber := variableIndex_eq_ok foundVariable
  dsimp only
  split
  · exact sound_resolve _ _ _ _
  · rename_i outside
    split
    · exact sound_resolve _ _ _ _
    · rename_i stays
      refine sound_preserve ?_ _ _
      have along : ∀ k, basis.GoesAlong row
          (replaceEntry (basis.rowCoefficients row) j coefficient) k := by
        intro k
        by_cases same : k = j
        · subst same
          refine Or.inr ⟨outside, ?_⟩
          unfold repriced
          rw [get_replaceEntry, if_pos rfl]
          exact stays
        · refine Or.inl ?_
          rw [get_replaceEntry, if_neg same, basis.get_rowCoefficients]
      have listed : (replaceEntry (basis.rowCoefficients row) j coefficient).toList =
          (problem.row row).coefficients.set j coefficient := by
        rw [← basis.toList_rowCoefficients]
        exact Vector.toList_set ..
      rw [problem.setCoefficient_eq_replaceRow]
      exact basis.acceptsOptimum_coefficients listed rfl rfl along

/-- A variable whose coefficient is not among the moved ones keeps it. -/
theorem eq_of_not_mem_movedVariables {row : Fin problem.numRows}
    {coefficients : Vector Rat problem.numVars} {j : Fin problem.numVars}
    (still : j ∉ basis.analysis.movedVariables row coefficients) :
    coefficients.get j = problem.coefficient basis.valid row j := by
  have exact : basis.analysis.tolerance = 0 := basis.exact
  have own := congrFun (basis.get_coefficients j) row
  by_contra different
  refine still (List.mem_filter.2 ⟨List.mem_finRange j, decide_eq_true ?_⟩)
  rw [exact]
  refine not_le.1 fun small => different ?_
  exact ((sub_eq_zero.1 ((BigM.abs_le_zero_iff _).1 small)).symm.trans own)

theorem changeRow_sound (number : Nat) (constraint : Constraint Rat) :
    Sound (problem.replaceRow number constraint)
      (basis.analysis.changeRow number constraint) := by
  refine sound_bind fun (row : Fin problem.numRows) foundRow => ?_
  refine sound_bind fun (coefficients : Vector Rat problem.numVars) foundCoefficients => ?_
  obtain rfl : row.val = number := rowIndex_eq_ok foundRow
  have listed : coefficients.toList = constraint.coefficients :=
    newCoefficients_eq_ok foundCoefficients
  dsimp only
  split
  · exact sound_resolve _ _ _ _
  · rename_i unchanged
    split
    · exact sound_resolve _ _ _ _
    · rename_i outside
      split
      · rename_i feasible
        split
        · exact sound_resolve _ _ _ _
        · rename_i settled
          have relation : constraint.relation = (problem.row row).relation :=
            (Decidable.not_not.1 fun different => unchanged (Or.inl different)).symm
          refine sound_preserve (basis.acceptsOptimum_replaceRow listed relation feasible ?_) _ _
          intro j
          by_cases moved : j ∈ basis.analysis.movedVariables row coefficients
          · exact Or.inr ⟨List.find?_eq_none.1 outside j moved,
              not_improves_of_firstImproving settled (basis.analysis.repriced row coefficients j)
                (List.mem_map_of_mem moved)⟩
          · exact Or.inl (basis.eq_of_not_mem_movedVariables moved)
      · exact sound_resolve _ _ _ _

theorem changeCost_sound (number : Nat) (coefficient : Rat) :
    Sound (problem.setCost number coefficient)
      (basis.analysis.changeCost number coefficient) := by
  refine sound_bind fun (j : Fin problem.numVars) found => ?_
  obtain rfl : j.val = number := variableIndex_eq_ok found
  dsimp only
  split
  · rename_i row inside
    refine sound_changeBasicCost (fun stay => ?_) _
    have own : basis.tableau.basis.get row = j.castLE problem.numVars_le_numColumns :=
      Fin.ext (Tableau.basis_of_basicRow? inside)
    have accepted := basis.acceptsOptimum_values (basis.keeps_setCost_inside ⟨row, own⟩
      (basis.get_replaceEntry_basicCosts own coefficient) stay)
    rw [IndexedProblem.toProblem_setCost, Problem.toProblem_indexed] at accepted
    exact { accepted with objective_eq := rfl }
  · rename_i outside
    split
    · exact sound_resolve _ _ _ _
    · rename_i stays
      have accepted := basis.acceptsOptimum_values (basis.keeps_setCost_outside
        (Tableau.not_isBasic_of_basicRow?_eq_none outside) stays)
      rw [IndexedProblem.toProblem_setCost, Problem.toProblem_indexed,
        ← basis.objectiveValue_eq] at accepted
      exact sound_preserve accepted _ _

theorem addConstraint_sound (constraint : Constraint Rat) :
    Sound (problem.addConstraint constraint) (basis.analysis.addConstraint constraint) := by
  refine sound_bind fun _ _ => ?_
  dsimp only
  split
  · rename_i satisfied
    exact sound_preserve (basis.acceptsOptimum_self.addConstraint satisfied) _ _
  · exact sound_resolve _ _ _ _

theorem addVariable_sound (name : String) (coefficient : Rat) (column : List Rat) :
    Sound (problem.addVariable name coefficient column)
      (basis.analysis.addVariable name coefficient column) := by
  unfold Sensitivity.addVariable
  split
  · exact sound_error _ _
  · rename_i entries made
    obtain rfl := toList_of_vectorOf? made
    split
    · dsimp only
      split
      · exact sound_resolve _ _ _ _
      · rename_i stays
        exact sound_preserve (basis.acceptsOptimum_addVariable stays) _ _
    · exact sound_error _ _

end OptimalBasis

/-! ### Any question -/

/-- A change that an analysis can be asked about. -/
inductive Question where
  | rhs (rowNumber : Nat) (number : Rat)
  | coefficient (rowNumber variableNumber : Nat) (number : Rat)
  | row (rowNumber : Nat) (constraint : Constraint Rat)
  | cost (variableNumber : Nat) (number : Rat)
  | newConstraint (constraint : Constraint Rat)
  | newVariable (name : String) (number : Rat) (column : List Rat)

/-- The problem after the change. -/
def Question.changed (problem : Problem Rat) : Question → Problem Rat
  | rhs rowNumber number => problem.setRhs rowNumber number
  | coefficient rowNumber variableNumber number =>
    problem.setCoefficient rowNumber variableNumber number
  | row rowNumber constraint => problem.replaceRow rowNumber constraint
  | cost variableNumber number => problem.setCost variableNumber number
  | newConstraint constraint => problem.addConstraint constraint
  | newVariable name number column => problem.addVariable name number column

namespace Sensitivity

/-- What the analysis answers. -/
def ask (analysis : Sensitivity Rat) : Question → Except ProblemError (WhatIfAnswer Rat)
  | .rhs rowNumber number => analysis.changeRhs rowNumber number
  | .coefficient rowNumber variableNumber number =>
    analysis.changeCoefficient rowNumber variableNumber number
  | .row rowNumber constraint => analysis.changeRow rowNumber constraint
  | .cost variableNumber number => analysis.changeCost variableNumber number
  | .newConstraint constraint => analysis.addConstraint constraint
  | .newVariable name number column => analysis.addVariable name number column

theorem ask_sound {problem : Problem Rat} (basis : OptimalBasis problem) (question : Question) :
    Sound (question.changed problem) (basis.analysis.ask question) := by
  cases question with
  | rhs rowNumber number => exact basis.changeRhs_sound rowNumber number
  | coefficient rowNumber variableNumber number =>
    exact basis.changeCoefficient_sound rowNumber variableNumber number
  | row rowNumber constraint => exact basis.changeRow_sound rowNumber constraint
  | cost variableNumber number => exact basis.changeCost_sound variableNumber number
  | newConstraint constraint => exact basis.addConstraint_sound constraint
  | newVariable name number column => exact basis.addVariable_sound name number column

/-- A preserved basis is optimal. When an analysis from a run without tolerance answers a question
with a preserved basis, the answer is about the changed problem, which accepts the values and the
objective as an optimum. -/
theorem preserved_isOptimal (problem : Problem Rat) (analysis : Sensitivity Rat)
    (made : OfExactRun problem analysis) (question : Question) (answer : WhatIfAnswer Rat)
    (asked : analysis.ask question = .ok answer) (objective : Rat) (values : List Rat)
    (preserved : answer.optimum = .preserved objective values) :
    answer.problem = question.changed problem ∧
      (question.changed problem).AcceptsOptimum objective values := by
  obtain ⟨basis, rfl⟩ := made.exists_basis
  obtain ⟨same, accepted⟩ := ask_sound basis question answer asked
  exact ⟨same, accepted objective values preserved⟩

theorem exists_preserved {result : Except ProblemError (WhatIfAnswer Rat)}
    (kept : result.map WhatIfAnswer.isPreserved = .ok true) :
    ∃ answer objective values, result = .ok answer ∧
      answer.optimum = .preserved objective values := by
  cases result with
  | error fault => cases kept
  | ok answer =>
    have preserved : answer.isPreserved = true := Except.ok.inj kept
    unfold WhatIfAnswer.isPreserved at preserved
    split at preserved
    · rename_i objective values optimum
      exact ⟨answer, objective, values, rfl, optimum⟩
    · cases preserved

/-- A problem with a variable that stays outside the optimal basis. -/
def idleVariableProblem : Problem Rat :=
  ((((Problem.withVariables 3).setObjective [3, 5, 1] .maximize).constrain [1, 1, 2] .atMost
    4).constrain [1, 3, 1] .equal 6).constrain [-1, 0, 0] .atMost (-1)

/-- One question of each kind. -/
def idleVariableQuestions : List Question :=
  [.rhs 0 5, .coefficient 1 2 4, .row 0 ⟨"c1", [1, 1, 3], .atMost, 5⟩, .cost 0 4,
    .newConstraint ⟨"c4", [1, 0, 0], .atMost, 10⟩, .newVariable "x4" 1 [1, 1, 0]]

/-- The statement at one question of each kind, all answered with a preserved basis. -/
theorem preserved_isOptimal_idleVariableProblem :
    ∃ analysis, OfExactRun idleVariableProblem analysis ∧
      ∀ question ∈ idleVariableQuestions, ∃ answer objective values,
        analysis.ask question = .ok answer ∧ answer.optimum = .preserved objective values ∧
          (question.changed idleVariableProblem).AcceptsOptimum objective values := by
  have kept : ∀ question ∈ idleVariableQuestions,
      (analyze idleVariableProblem { tolerance := 0 } >>= fun analysis =>
        (analysis.ask question).map WhatIfAnswer.isPreserved) = .ok true := by decide +kernel
  cases analyzed : analyze idleVariableProblem { tolerance := 0 } with
  | error fault =>
    rw [analyzed] at kept
    cases kept _ (List.mem_cons_self ..)
  | ok analysis =>
    rw [analyzed] at kept
    have made := ofExactRun_of_analyze rfl analyzed
    refine ⟨analysis, made, fun question member => ?_⟩
    obtain ⟨answer, objective, values, asked, preserved⟩ := exists_preserved (kept question member)
    exact ⟨answer, objective, values, asked, preserved,
      (preserved_isOptimal _ analysis made question answer asked objective values preserved).2⟩

end Sensitivity

end LinearProgramming
