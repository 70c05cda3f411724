/-
This file follows the revised method from iteration to iteration, whatever its numbers compute.

An iteration takes one of four decisions, listed once with what each of them was based on. Only an
exchange goes on, so what every exchange keeps holds of the recorded iterations and of the basis
at which a run ends.
-/

import Mathlib
import LinearProgramming.Revised

namespace LinearProgramming.RevisedSimplex

/-! ### What an iteration decides -/

variable {α : Type} [Scalar α] {engine : RevisedSimplex α} {mayExchange : Bool}
  {state : RevisedState α engine.numRows engine.numColumns}

theorem decision_of_none (least : BigM.leastNegative engine.tolerance
    (engine.examine mayExchange state).reducedCosts = none) :
    (engine.examine mayExchange state).decision = .optimal := by
  unfold examine at least ⊢
  dsimp only at least ⊢
  rw [least]

theorem decision_of_some {entering : Fin engine.numColumns} {reducedCost : BigM α}
    (least : BigM.leastNegative engine.tolerance
      (engine.examine mayExchange state).reducedCosts = some (entering, reducedCost)) :
    (engine.examine mayExchange state).decision =
      if mayExchange then
        engine.exchangeOrUnbounded state.inverse (state.inverse.mulVec engine.b) entering
          reducedCost
      else .notConverged := by
  unfold examine at least ⊢
  dsimp only at least ⊢
  rw [least]

variable {inverse : DenseMatrix α engine.numRows engine.numRows}
  {levels direction : Vector α engine.numRows} {ratios : Vector (Option α) engine.numRows}
  {entering : Fin engine.numColumns} {reducedCost : BigM α}

theorem exchangeOrUnbounded_of_none
    (directed : inverse.mulVec (engine.a.column entering) = direction)
    (divided : RevisedSimplex.ratios engine.tolerance (inverse.mulVec (engine.a.column entering))
      levels = ratios) (stuck : leastRatio ratios = none) :
    engine.exchangeOrUnbounded inverse levels entering reducedCost =
      .unbounded entering direction ratios := by
  subst directed divided
  unfold exchangeOrUnbounded
  dsimp only
  rw [stuck]

theorem exchangeOrUnbounded_of_some
    (directed : inverse.mulVec (engine.a.column entering) = direction)
    (divided : RevisedSimplex.ratios engine.tolerance (inverse.mulVec (engine.a.column entering))
      levels = ratios) {leaving : Fin engine.numRows} {theta : α}
    (left : leastRatio ratios = some (leaving, theta)) :
    engine.exchangeOrUnbounded inverse levels entering reducedCost =
      .exchange entering reducedCost direction ratios leaving theta := by
  subst directed divided
  unfold exchangeOrUnbounded
  dsimp only
  rw [left]

theorem iterate_of_exchange {remaining : Nat}
    {earlier : Array (RevisedStep α engine.numRows engine.numColumns)}
    {leaving : Fin engine.numRows} {theta : α}
    (decided : (engine.examine true state).decision =
      .exchange entering reducedCost direction ratios leaving theta) :
    engine.iterate (remaining + 1) earlier state =
      engine.iterate remaining (earlier.push (engine.examine true state))
        (exchange state entering direction leaving) := by
  rw [iterate, decided]

theorem iterate_of_leaving_eq_none {remaining : Nat}
    {earlier : Array (RevisedStep α engine.numRows engine.numColumns)}
    (decided : (engine.examine true state).decision.leaving? = none) :
    engine.iterate (remaining + 1) earlier state = (earlier, engine.examine true state) := by
  rw [iterate]
  split
  · rename_i exchanged
    rw [exchanged] at decided
    cases decided
  · rfl

theorem solve_of_iterate {earlier : Array (RevisedStep α engine.numRows engine.numColumns)}
    {final : RevisedStep α engine.numRows engine.numColumns}
    (iterated : engine.iterate engine.maxIterations #[] ⟨0, engine.basis, engine.inverse⟩ =
      (earlier, final)) :
    engine.solve =
      ⟨engine.numRows, engine.numColumns, engine.names, earlier, final,
        engine.outcomeOf final⟩ := by
  unfold solve
  rw [iterated]

/-- All that an iteration can decide, with what it saw of the prices and the ratios. -/
inductive DecisionOf (engine : RevisedSimplex α) (mayExchange : Bool)
    (state : RevisedState α engine.numRows engine.numColumns) :
    RevisedDecision α engine.numRows engine.numColumns → Prop
  | optimal (least : BigM.leastNegative engine.tolerance
      (engine.examine mayExchange state).reducedCosts = none) :
    DecisionOf engine mayExchange state .optimal
  | notConverged (entering : Fin engine.numColumns) (reducedCost : BigM α)
    (least : BigM.leastNegative engine.tolerance
      (engine.examine mayExchange state).reducedCosts = some (entering, reducedCost))
    (stopped : mayExchange = false) : DecisionOf engine mayExchange state .notConverged
  | unbounded (entering : Fin engine.numColumns) (reducedCost : BigM α)
    (least : BigM.leastNegative engine.tolerance
      (engine.examine mayExchange state).reducedCosts = some (entering, reducedCost))
    (allowed : mayExchange = true)
    (stuck : leastRatio (RevisedSimplex.ratios engine.tolerance
      (state.inverse.mulVec (engine.a.column entering)) (state.inverse.mulVec engine.b)) = none) :
    DecisionOf engine mayExchange state (.unbounded entering
      (state.inverse.mulVec (engine.a.column entering))
      (RevisedSimplex.ratios engine.tolerance (state.inverse.mulVec (engine.a.column entering))
        (state.inverse.mulVec engine.b)))
  | exchange (entering : Fin engine.numColumns) (reducedCost : BigM α)
    (leaving : Fin engine.numRows) (theta : α)
    (least : BigM.leastNegative engine.tolerance
      (engine.examine mayExchange state).reducedCosts = some (entering, reducedCost))
    (allowed : mayExchange = true)
    (left : leastRatio (RevisedSimplex.ratios engine.tolerance
      (state.inverse.mulVec (engine.a.column entering)) (state.inverse.mulVec engine.b)) =
        some (leaving, theta)) :
    DecisionOf engine mayExchange state (.exchange entering reducedCost
      (state.inverse.mulVec (engine.a.column entering))
      (RevisedSimplex.ratios engine.tolerance (state.inverse.mulVec (engine.a.column entering))
        (state.inverse.mulVec engine.b)) leaving theta)

theorem decisionOf_examine (engine : RevisedSimplex α) (mayExchange : Bool)
    (state : RevisedState α engine.numRows engine.numColumns) :
    DecisionOf engine mayExchange state (engine.examine mayExchange state).decision := by
  cases least : BigM.leastNegative engine.tolerance
      (engine.examine mayExchange state).reducedCosts with
  | none =>
    rw [decision_of_none least]
    exact .optimal least
  | some found =>
    rw [decision_of_some least]
    cases mayExchange with
    | false => exact .notConverged found.1 found.2 least rfl
    | true =>
      rw [if_pos rfl]
      cases ratio : leastRatio (RevisedSimplex.ratios engine.tolerance
          (state.inverse.mulVec (engine.a.column found.1)) (state.inverse.mulVec engine.b)) with
      | none =>
        rw [exchangeOrUnbounded_of_none rfl rfl ratio]
        exact .unbounded found.1 found.2 least rfl ratio
      | some left =>
        rw [exchangeOrUnbounded_of_some rfl rfl ratio]
        exact .exchange found.1 found.2 left.1 left.2 least rfl ratio

/-- What an iteration saw settles its decision. -/
theorem DecisionOf.decision_eq {decision : RevisedDecision α engine.numRows engine.numColumns}
    (decided : DecisionOf engine mayExchange state decision) :
    (engine.examine mayExchange state).decision = decision := by
  cases decided with
  | optimal least => exact decision_of_none least
  | notConverged entering reducedCost least stopped =>
    subst stopped
    exact decision_of_some least
  | unbounded entering reducedCost least allowed stuck =>
    subst allowed
    exact (decision_of_some least).trans (exchangeOrUnbounded_of_none rfl rfl stuck)
  | exchange entering reducedCost leaving theta least allowed left =>
    subst allowed
    exact (decision_of_some least).trans (exchangeOrUnbounded_of_some rfl rfl left)

/-- What an iteration finds depends on the equations, the costs and the tolerance, not on where the
method starts or on what it reports. -/
theorem examine_restarted (engine : RevisedSimplex α)
    (inverse : DenseMatrix α engine.numRows engine.numRows) (numVars : Nat) (sense : Sense)
    (mayExchange : Bool) (state : RevisedState α engine.numRows engine.numColumns) :
    ({ engine with inverse, numVars, sense } : RevisedSimplex α).examine mayExchange state =
      engine.examine mayExchange state := by
  have decided : DecisionOf { engine with inverse, numVars, sense } mayExchange state
      (engine.examine mayExchange state).decision := by
    have saw := engine.decisionOf_examine mayExchange state
    generalize (engine.examine mayExchange state).decision = decision at saw ⊢
    cases saw with
    | optimal least => exact .optimal least
    | notConverged entering reducedCost least stopped =>
      exact .notConverged entering reducedCost least stopped
    | unbounded entering reducedCost least allowed stuck =>
      apply DecisionOf.unbounded
      · exact least
      · exact allowed
      · exact stuck
    | exchange entering reducedCost leaving theta least allowed left =>
      apply DecisionOf.exchange
      · exact least
      · exact allowed
      · exact left
  exact congrArg (fun decision => { engine.examine mayExchange state with decision })
    decided.decision_eq

/-! ### From iteration to iteration -/

/-- What each exchange keeps holds at the end of a run, which is an iteration that makes no
exchange. -/
theorem iterate_keeps {engine : RevisedSimplex α}
    (holds : Array (RevisedStep α engine.numRows engine.numColumns) →
      RevisedState α engine.numRows engine.numColumns → Prop)
    (next : ∀ earlier state entering reducedCost direction ratios leaving theta,
      holds earlier state → (engine.examine true state).decision =
        .exchange entering reducedCost direction ratios leaving theta →
      holds (earlier.push (engine.examine true state))
        (RevisedSimplex.exchange state entering direction leaving))
    (remaining : Nat) {earlier : Array (RevisedStep α engine.numRows engine.numColumns)}
    {state : RevisedState α engine.numRows engine.numColumns} (begun : holds earlier state) :
    ∃ all last mayExchange, holds all last ∧
      engine.iterate remaining earlier state = (all, engine.examine mayExchange last) ∧
      (engine.examine mayExchange last).decision.leaving? = none := by
  induction remaining generalizing earlier state with
  | zero =>
    refine ⟨earlier, state, false, begun, rfl, ?_⟩
    have decided := engine.decisionOf_examine false state
    generalize (engine.examine false state).decision = decision at decided ⊢
    cases decided with
    | optimal | notConverged | unbounded => rfl
    | exchange _ _ _ _ _ allowed => cases allowed
  | succ remaining inductionHypothesis =>
    cases decided : (engine.examine true state).decision with
    | exchange entering reducedCost direction ratios leaving theta =>
      rw [iterate_of_exchange decided]
      exact inductionHypothesis (next _ _ _ _ _ _ _ _ begun decided)
    | optimal | notConverged | unbounded =>
      have stopped : (engine.examine true state).decision.leaving? = none := by rw [decided]; rfl
      exact ⟨earlier, state, true, begun, iterate_of_leaving_eq_none stopped, stopped⟩

end LinearProgramming.RevisedSimplex
