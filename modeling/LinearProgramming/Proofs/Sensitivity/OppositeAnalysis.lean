/-
This file compares the analysis of a problem with that of the opposite problem.

Both are made from one tableau. Prices and objective coefficients are read from it for maximizing
and handed over in the author's sense, so the prices are negated and the intervals of the
coefficients are reflected at zero. The right-hand sides have no sense, and their intervals stay.
-/

import Mathlib
import LinearProgramming.Proofs.OppositeSense
import LinearProgramming.Sensitivity

namespace LinearProgramming

/-! ### Negated answers -/

/-- The price with the other sign. -/
def ShadowPrice.negated (price : ShadowPrice Rat) : ShadowPrice Rat :=
  { price with value := -price.value }

/-- The interval reflected at zero, of the coefficient with the other sign. -/
def ObjectiveRange.negated (range : ObjectiveRange Rat) : ObjectiveRange Rat :=
  { range with
    current := -range.current
    lower := range.upper.negate
    upper := range.lower.negate }

@[simp] theorem Extended.negate_negate (number : Extended Rat) : number.negate.negate = number := by
  cases number with
  | negInf | posInf => rfl
  | finite number => exact congrArg Extended.finite (neg_neg number)

namespace Sensitivity

/-! ### The opposite analysis -/

/-- The analysis of the opposite problem from the same tableau. -/
def opposite (analysis : Sensitivity Rat) : Sensitivity Rat :=
  { analysis with
    problem := analysis.problem.opposite
    valid := analysis.valid.opposite }

/-- A run is refused for both problems for one reason, or makes the opposite analysis. -/
theorem ofRun_opposite (problem : Problem Rat) {form : StandardForm Rat} (run : Run form) :
    ofRun problem.opposite run.opposite = (ofRun problem run).map opposite := by
  have status : run.opposite.status = run.status := rfl
  unfold ofRun
  rw [status]
  by_cases optimal : run.status = some .optimal
  · rw [if_pos optimal, if_pos optimal, problem.validate_opposite]
    cases problem.validate with
    | error fault => rfl
    | ok evidence =>
      obtain ⟨valid⟩ := evidence
      have agrees : form.agrees (.ofProblem problem.opposite valid.opposite) =
          form.agrees (.ofProblem problem valid) := by
        rw [StandardForm.ofProblem_opposite valid]
      simp only [bind, Except.bind, Except.map]
      by_cases sameVars : form.numVars = problem.numVars
      · have sameVarsOpposite : form.numVars = problem.opposite.numVars := sameVars
        rw [dif_pos sameVars, dif_pos sameVarsOpposite]
        by_cases sameRows : form.numRows = problem.numRows
        · have sameRowsOpposite : form.numRows = problem.opposite.numRows := sameRows
          rw [dif_pos sameRows, dif_pos sameRowsOpposite, agrees]
          cases form.agrees (.ofProblem problem valid) <;> rfl
        · have otherRows : ¬ form.numRows = problem.opposite.numRows := sameRows
          rw [dif_neg sameRows, dif_neg otherRows]
          rfl
      · have otherVars : ¬ form.numVars = problem.opposite.numVars := sameVars
        rw [dif_neg sameVars, dif_neg otherVars]
        rfl
  · rw [if_neg optimal, if_neg optimal]
    rfl

theorem analyze_opposite (problem : Problem Rat) (solver : Solver Rat) :
    analyze problem.opposite solver = (analyze problem solver).map opposite := by
  unfold analyze
  rw [solver.start_opposite]
  cases solver.start problem with
  | error fault => rfl
  | ok started =>
    refine Eq.trans ?_ (ofRun_opposite problem started.2.complete)
    show ofRun problem.opposite started.2.opposite.complete = _
    rw [Run.complete_opposite]

/-! ### Its answers -/

variable (analysis : Sensitivity Rat)

theorem shadowPrice_opposite (row : Fin analysis.form.numRows) :
    analysis.opposite.shadowPrice row = -analysis.shadowPrice row := by
  have slack : analysis.opposite.form.slackOf.get row = analysis.form.slackOf.get row := rfl
  unfold shadowPrice
  rw [slack]
  cases analysis.form.slackOf.get row with
  | none => exact neg_zero.symm
  | some column => exact analysis.problem.sense.orient_opposite _

theorem shadowPrices_opposite :
    analysis.opposite.shadowPrices = analysis.shadowPrices.map ShadowPrice.negated := by
  unfold shadowPrices
  rw [List.map_map]
  refine List.map_congr_left fun row _ => ?_
  exact congrArg (ShadowPrice.mk _ _) (analysis.shadowPrice_opposite row)

theorem objectiveRange_opposite (j : Fin analysis.problem.numVars) :
    analysis.opposite.objectiveRange j = (analysis.objectiveRange j).negated := by
  have current : analysis.opposite.problem.objectiveCoefficient analysis.opposite.valid j =
      -analysis.problem.objectiveCoefficient analysis.valid j :=
    Problem.objectiveCoefficient_opposite analysis.valid j
  have sense : analysis.opposite.problem.sense = analysis.problem.sense.opposite := rfl
  have basicRow : analysis.opposite.tableau.basicRow? j = analysis.tableau.basicRow? j := rfl
  unfold objectiveRange ObjectiveRange.negated
  dsimp only
  rw [current, sense, Sense.orient_opposite_neg, basicRow]
  cases analysis.problem.sense with
  | maximize => cases analysis.tableau.basicRow? j <;> rfl
  | minimize =>
    -- the problem itself reflects the interval, and negating it undoes that
    simp only [Sense.opposite, reflected, Extended.negate_negate]
    cases analysis.tableau.basicRow? j <;> rfl

theorem objectiveRanges_opposite :
    analysis.opposite.objectiveRanges = analysis.objectiveRanges.map ObjectiveRange.negated := by
  unfold objectiveRanges
  rw [List.map_map]
  exact List.map_congr_left fun j _ => analysis.objectiveRange_opposite j

theorem rhsRanges_opposite : analysis.opposite.rhsRanges = analysis.rhsRanges := rfl

end Sensitivity

/-- Negating the objective and turning the sense changes no run. With any settings, cap, tolerance
and mask, both methods and the search refuse the opposite problem for the same reason, or take the
same steps over the same nodes and report the negated objective, also where it is infinite. An
analysis is made of the opposite problem exactly when one is made of the problem; it has the
negated shadow prices, the reflected intervals of the coefficients, and the same intervals of the
right-hand sides. -/
theorem Problem.opposite_negates (problem : Problem Rat) (solver : Solver Rat) (cap : Nat)
    (tolerance : Rat) (settings : BranchAndBound Rat) (mask : List Bool) :
    (∀ outcome : Outcome Rat, outcome.negated.status = outcome.status ∧
        outcome.negated.values = outcome.values ∧
        outcome.negated.objectiveValue = outcome.objectiveValue.map Extended.negate) ∧
      solver.solve problem.opposite = (solver.solve problem).map Solution.negated ∧
      (RevisedSimplex.ofProblem problem.opposite).map
          (fun engine => (engine.withLimits cap tolerance).solve) =
        (RevisedSimplex.ofProblem problem).map
          (fun engine => (engine.withLimits cap tolerance).solve.negated) ∧
      settings.solveMixed problem.opposite mask =
        (settings.solveMixed problem mask).map SearchTree.negated ∧
      (Sensitivity.analyze problem.opposite solver).map
          (fun analysis => (analysis.shadowPrices, analysis.objectiveRanges, analysis.rhsRanges)) =
        (Sensitivity.analyze problem solver).map
          (fun analysis => (analysis.shadowPrices.map ShadowPrice.negated,
            analysis.objectiveRanges.map ObjectiveRange.negated, analysis.rhsRanges)) := by
  refine ⟨fun outcome => ⟨outcome.status_negated, outcome.values_negated,
      outcome.objectiveValue_negated⟩, solver.solve_opposite problem,
    RevisedSimplex.solve_ofProblem_opposite problem cap tolerance,
    settings.solveMixed_opposite problem mask, ?_⟩
  rw [Sensitivity.analyze_opposite]
  cases Sensitivity.analyze problem solver with
  | error fault => rfl
  | ok analysis =>
    exact congrArg Except.ok (Prod.ext analysis.shadowPrices_opposite
      (Prod.ext analysis.objectiveRanges_opposite analysis.rhsRanges_opposite))

end LinearProgramming
