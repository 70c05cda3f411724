/-
This file proves that the iterations of the revised method are a faithful record of its run,
whatever its numbers compute.

Each iteration prices the columns outside its basis and decides. Only an exchange goes on, and its
decision holds what it was based on: a column that was priced, and a row with its ratio. So the
iterations count the exchanges, each basis follows from the one before it by the recorded exchange,
and whoever repeats the recorded exchanges from the start comes to the basis and the inverse that
the run returns.
-/

import Mathlib
import LinearProgramming.Proofs.PivotChoice
import LinearProgramming.Proofs.RevisedRun

namespace LinearProgramming

/-- An entry of a list with one more entry is one of the list, or the last one. -/
theorem getElem?_concat_eq_some {β : Type} {list : List β} {last entry : β} {k : Nat}
    (found : (list ++ [last])[k]? = some entry) :
    list[k]? = some entry ∨ k = list.length ∧ last = entry := by
  rcases Nat.lt_trichotomy k list.length with earlier | rfl | later
  · rw [List.getElem?_append_left earlier] at found
    exact Or.inl found
  · rw [List.getElem?_concat_length] at found
    exact Or.inr ⟨rfl, Option.some.inj found⟩
  · rw [List.getElem?_eq_none (by simpa using later)] at found
    cases found

variable {α : Type}

/-! ### A record of iterations -/

namespace RevisedStep

variable {m n : Nat}

/-- The basis and the inverse of an iteration, with its number. -/
def state (step : RevisedStep α m n) : RevisedState α m n :=
  ⟨step.iteration, step.basis, step.inverse⟩

/-- An iteration prices exactly the columns outside its basis, in increasing order. -/
structure PricesOutside (step : RevisedStep α m n) : Prop where
  increasing : (step.reducedCosts.map Prod.fst).Pairwise (· < ·)
  mem_iff : ∀ column, column ∈ step.reducedCosts.map Prod.fst ↔ column ∉ step.basis.toList

/-- An iteration is followed by another: it let a column from outside its basis replace the basic
column of a row, by the ratio that it recorded for this row, and the next iteration has the basis
with that column in that row. -/
structure Exchanges (step next : RevisedStep α m n) (entering : Fin n) (leaving : Fin m) :
    Prop where
  decided : ∃ reducedCost direction ratios theta,
    step.decision = .exchange entering reducedCost direction ratios leaving theta ∧
      ratios.get leaving = some theta
  outside : entering ∉ step.basis.toList
  basis : next.basis = replaceEntry step.basis leaving entering

/-- The decision of the last iteration of a run that ends with a status. A run without an improving
column may turn out infeasible, and in an unbounded one no row has a ratio. -/
def EndsAs (step : RevisedStep α m n) : Status → Prop
  | .optimal | .infeasible => step.decision = .optimal
  | .unbounded => ∃ entering direction ratios,
    step.decision = .unbounded entering direction ratios ∧ ∀ row, ratios.get row = none
  | .notConverged => step.decision = .notConverged

end RevisedStep

variable [Scalar α]

/-- The state after the exchanges that some iterations recorded. -/
def RevisedState.replay {m n : Nat} (start : RevisedState α m n)
    (steps : List (RevisedStep α m n)) : RevisedState α m n :=
  steps.foldl (fun state step =>
    match step.decision with
    | .exchange entering _ direction _ leaving _ =>
      RevisedSimplex.exchange state entering direction leaving
    | _ => state) start

/-- Iterations that follow each other from a state: they are numbered, each but the last made an
exchange, each prices the columns outside its basis, and each stands where the exchanges before it
lead. -/
structure RevisedStep.Follow {m n : Nat} (start : RevisedState α m n)
    (steps : List (RevisedStep α m n)) : Prop where
  numbered : ∀ (k : Nat) step, steps[k]? = some step → step.iteration = k
  exchanges : ∀ (k : Nat) step next, steps[k]? = some step → steps[k + 1]? = some next →
    ∃ entering leaving, step.Exchanges next entering leaving
  prices : ∀ step ∈ steps, step.PricesOutside
  stands : ∀ (k : Nat) step, steps[k]? = some step → start.replay (steps.take k) = step.state

/-- A solution of the revised method is a record of its run from a state. Its iterations follow each
other, there is one for each exchange and one more, the last one has the decision that goes with the
status, and its basis and inverse are those at which all exchanges arrive. -/
structure RevisedSolution.IsRecordOf (solution : RevisedSolution α) (maxIterations : Nat)
    (start : RevisedState α solution.numRows solution.numColumns) : Prop where
  follow : RevisedStep.Follow start solution.steps
  iterations_le : solution.iterations ≤ maxIterations
  length : solution.steps.length = solution.iterations + 1
  last : solution.steps[solution.iterations]? = some solution.finalStep
  ends : solution.finalStep.EndsAs solution.status
  arrives : start.replay solution.steps = solution.finalStep.state

namespace RevisedSimplex

variable {engine : RevisedSimplex α} {state start : RevisedState α engine.numRows engine.numColumns}
  {entering : Fin engine.numColumns} {reducedCost : BigM α}
  {direction : Vector α engine.numRows} {ratios : Vector (Option α) engine.numRows}
  {leaving : Fin engine.numRows} {theta : α}

/-! ### What one iteration records -/

theorem leastRatio_holdsRow {m : Nat} (ratios : Vector (Option α) m) :
    PivotRule.HoldsRow ratios (List.finRange m) (leastRatio ratios) := by
  refine foldl_prefix_induction (PivotRule.HoldsRow ratios) _ _
    (fun _ impossible => nomatch impossible) ?_ _
  intro seen found row holds
  cases present : ratios.get row with
  | none => exact holds.skip present
  | some ratio =>
    cases found with
    | none => exact present
    | some held =>
      show PivotRule.HoldsRow ratios _ (if _ then _ else _)
      split
      · exact present
      · exact holds

theorem pricesOutside_examine (engine : RevisedSimplex α) (mayExchange : Bool)
    (state : RevisedState α engine.numRows engine.numColumns) :
    (engine.examine mayExchange state).PricesOutside := by
  have columns : (engine.examine mayExchange state).reducedCosts.map Prod.fst =
      (List.finRange engine.numColumns).filter fun j => !state.basis.toList.contains j := by
    show (List.map _ (List.filter _ _)).map Prod.fst = _
    rw [List.map_map]
    exact List.map_id _
  refine ⟨?_, fun column => ?_⟩
  · rw [columns]
    exact (List.pairwise_lt_finRange _).filter _
  · rw [columns, List.mem_filter]
    show _ ∧ (!state.basis.toList.contains column) = true ↔ column ∉ state.basis.toList
    simp

/-- An exchange lets a column enter that was priced, in a row with a ratio, and leads to the next
state. -/
theorem exchanges_of_decision (decided : (engine.examine true state).decision =
      .exchange entering reducedCost direction ratios leaving theta) (mayExchange : Bool) :
    (engine.examine true state).Exchanges
      (engine.examine mayExchange (exchange state entering direction leaving)) entering
      leaving := by
  have saw := engine.decisionOf_examine true state
  rw [decided] at saw
  cases saw with
  | exchange _ _ _ _ least _ left =>
    have holds := leastRatio_holdsRow (RevisedSimplex.ratios engine.tolerance
      (state.inverse.mulVec (engine.a.column entering)) (state.inverse.mulVec engine.b))
    rw [left] at holds
    have priced := List.mem_map_of_mem (f := Prod.fst) (BigM.mem_of_leastNegative least)
    exact ⟨⟨_, _, _, _, decided, holds⟩,
      ((engine.pricesOutside_examine true state).mem_iff entering).1 priced, rfl⟩

theorem endsAs_outcomeOf {mayExchange : Bool}
    (stopped : (engine.examine mayExchange state).decision.leaving? = none) :
    (engine.examine mayExchange state).EndsAs
      (engine.outcomeOf (engine.examine mayExchange state)).status := by
  have saw := engine.decisionOf_examine mayExchange state
  cases decided : (engine.examine mayExchange state).decision with
  | optimal =>
    unfold outcomeOf
    rw [decided]
    dsimp only
    split <;> exact decided
  | notConverged =>
    unfold outcomeOf
    rw [decided]
    exact decided
  | unbounded entering direction ratios =>
    unfold outcomeOf
    rw [decided] at saw ⊢
    cases saw with
    | unbounded _ _ _ _ stuck =>
      have holds := leastRatio_holdsRow (RevisedSimplex.ratios engine.tolerance
        (state.inverse.mulVec (engine.a.column entering)) (state.inverse.mulVec engine.b))
      rw [stuck] at holds
      exact ⟨_, _, _, decided, fun row => holds row (List.mem_finRange row)⟩
  | exchange entering reducedCost direction ratios leaving theta =>
    rw [decided] at stopped
    cases stopped

/-! ### What an exchange keeps of the record -/

theorem replay_of_exchange {steps : List (RevisedStep α engine.numRows engine.numColumns)}
    {step : RevisedStep α engine.numRows engine.numColumns}
    (decided : step.decision = .exchange entering reducedCost direction ratios leaving theta) :
    start.replay (steps ++ [step]) =
      exchange (start.replay steps) entering direction leaving := by
  unfold RevisedState.replay
  rw [List.foldl_concat, decided]

theorem replay_of_leaving_eq_none
    {steps : List (RevisedStep α engine.numRows engine.numColumns)}
    {step : RevisedStep α engine.numRows engine.numColumns}
    (stopped : step.decision.leaving? = none) :
    start.replay (steps ++ [step]) = start.replay steps := by
  unfold RevisedState.replay
  rw [List.foldl_concat]
  split
  · rename_i decided
    rw [decided] at stopped
    cases stopped
  · rfl

/-- The first iteration follows from the start. -/
theorem follow_start (zero : start.iteration = 0) (mayExchange : Bool) :
    RevisedStep.Follow start [engine.examine mayExchange start] where
  numbered k step found := by
    cases k with
    | zero =>
      obtain rfl := Option.some.inj found
      exact zero
    | succ k => cases found
  exchanges _ _ _ _ impossible := nomatch impossible
  prices step member := by
    rw [List.mem_singleton.1 member]
    exact engine.pricesOutside_examine mayExchange start
  stands k step found := by
    cases k with
    | zero =>
      obtain rfl := Option.some.inj found
      rfl
    | succ k => cases found

/-- An iteration that makes an exchange is followed by the one at the next state. -/
theorem follow_exchange {earlier : List (RevisedStep α engine.numRows engine.numColumns)}
    (follow : RevisedStep.Follow start (earlier ++ [engine.examine true state]))
    (decided : (engine.examine true state).decision =
      .exchange entering reducedCost direction ratios leaving theta) (mayExchange : Bool) :
    RevisedStep.Follow start (earlier ++ [engine.examine true state] ++
      [engine.examine mayExchange (exchange state entering direction leaving)]) := by
  have current := List.getElem?_concat_length (l := earlier) (a := engine.examine true state)
  have number : state.iteration = earlier.length := follow.numbered _ _ current
  have arrived : start.replay earlier = state := by
    have stands := follow.stands _ _ current
    rwa [List.take_left] at stands
  have length : (earlier ++ [engine.examine true state]).length = earlier.length + 1 := by simp
  refine ⟨fun k step found => ?_, fun k step next here there => ?_, fun step member => ?_,
    fun k step found => ?_⟩
  · rcases getElem?_concat_eq_some found with old | ⟨rfl, rfl⟩
    · exact follow.numbered k step old
    · rw [length, ← number]
      rfl
  · have inRange := (List.getElem?_eq_some_iff.1 there).1
    rw [List.length_append, List.length_singleton] at inRange
    rw [List.getElem?_append_left (Nat.lt_of_succ_lt_succ inRange)] at here
    rcases getElem?_concat_eq_some there with old | ⟨same, rfl⟩
    · exact follow.exchanges k step next here old
    · rw [length] at same
      obtain rfl : k = earlier.length := Nat.succ.inj same
      obtain rfl := Option.some.inj (current.symm.trans here)
      exact ⟨entering, leaving, exchanges_of_decision decided mayExchange⟩
  · rcases List.mem_append.1 member with old | last
    · exact follow.prices step old
    · rw [List.mem_singleton.1 last]
      exact engine.pricesOutside_examine mayExchange _
  · rcases getElem?_concat_eq_some found with old | ⟨rfl, rfl⟩
    · have inRange := (List.getElem?_eq_some_iff.1 old).1
      rw [List.take_append_of_le_length inRange.le]
      exact follow.stands k step old
    · rw [List.take_left, replay_of_exchange decided, arrived]
      rfl

/-! ### The whole run -/

/-- A run makes no more exchanges than it is allowed. -/
theorem size_iterate_le (engine : RevisedSimplex α) (remaining : Nat)
    (earlier : Array (RevisedStep α engine.numRows engine.numColumns))
    (state : RevisedState α engine.numRows engine.numColumns) :
    (engine.iterate remaining earlier state).1.size ≤ earlier.size + remaining := by
  induction remaining generalizing earlier state with
  | zero => exact le_rfl
  | succ remaining inductionHypothesis =>
    cases decided : (engine.examine true state).decision with
    | exchange entering reducedCost direction ratios leaving theta =>
      rw [iterate_of_exchange decided]
      refine (inductionHypothesis _ _).trans_eq ?_
      rw [Array.size_push, Nat.add_right_comm, Nat.add_assoc]
    | optimal | notConverged | unbounded =>
      rw [iterate_of_leaving_eq_none (by rw [decided]; rfl)]
      exact Nat.le_add_right _ _

/-- The trace of the revised method is a faithful record. Whatever the scalars compute, every engine
returns a solution that records its run from the engine's basis and inverse, with at most as many
exchanges as its cap. -/
theorem solve_isRecordOf (engine : RevisedSimplex α) :
    engine.solve.IsRecordOf engine.maxIterations ⟨0, engine.basis, engine.inverse⟩ := by
  have begun : ∀ allowed, RevisedStep.Follow ⟨0, engine.basis, engine.inverse⟩
      ((#[] : Array (RevisedStep α engine.numRows engine.numColumns)).toList ++
        [engine.examine allowed ⟨0, engine.basis, engine.inverse⟩]) := follow_start rfl
  obtain ⟨all, last, mayExchange, follow, iterated, stopped⟩ := iterate_keeps
    (fun earlier state => ∀ allowed, RevisedStep.Follow ⟨0, engine.basis, engine.inverse⟩
      (earlier.toList ++ [engine.examine allowed state]))
    (fun _ _ _ _ _ _ _ _ follow decided allowed => by
      rw [Array.toList_push]
      exact follow_exchange (follow true) decided allowed)
    engine.maxIterations begun
  have size := engine.size_iterate_le engine.maxIterations #[] ⟨0, engine.basis, engine.inverse⟩
  rw [iterated, Array.size_empty, Nat.zero_add] at size
  have current := List.getElem?_concat_length (l := all.toList)
    (a := engine.examine mayExchange last)
  have number : last.iteration = all.toList.length := (follow mayExchange).numbered _ _ current
  unfold solve
  rw [iterated]
  exact {
    follow := follow mayExchange
    iterations_le := number.trans_le size
    length := by
      show (all.toList ++ [_]).length = last.iteration + 1
      rw [number, List.length_append, List.length_singleton]
    last := by
      show (all.toList ++ [_])[last.iteration]? = _
      rw [number]
      exact current
    ends := endsAs_outcomeOf stopped
    arrives := by
      have stands := (follow mayExchange).stands _ _ current
      rw [List.take_left] at stands
      exact (replay_of_leaving_eq_none stopped).trans stands }

end RevisedSimplex

end LinearProgramming
