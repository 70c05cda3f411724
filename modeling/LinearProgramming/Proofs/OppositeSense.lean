/-
This file compares a problem with its opposite, whose objective has the other signs and the other
sense.

The two ask the same question, and they have one standard form, since its costs are set for
maximizing. So both methods make the same steps on both, and the sense only matters where an
objective is reported: there the sign is turned, and an infinite objective changes sides. A search
compares objectives in the author's sense, with the incumbent and with the infinities that stand
in for one, so that negated objectives are compared the other way and its nodes are the same.

Every record that reports an objective has a negated form here, and every function that makes such
a record on the opposite problem makes the negated one.
-/

import Mathlib
import LinearProgramming.Proofs.RevisedRun
import LinearProgramming.Proofs.SearchRun
import LinearProgramming.Proofs.TableauRun

namespace LinearProgramming

/-! ### The opposite problem -/

namespace Sense

/-- The other sense. -/
def opposite : Sense → Sense
  | maximize => minimize
  | minimize => maximize

@[simp] theorem opposite_opposite (sense : Sense) : sense.opposite.opposite = sense := by
  cases sense <;> rfl

theorem orient_opposite (sense : Sense) (number : Rat) :
    sense.opposite.orient number = -sense.orient number := by
  cases sense with
  | maximize => rfl
  | minimize => exact (neg_neg number).symm

/-- A negated number in the other sense is the same number to be made large. -/
theorem orient_opposite_neg (sense : Sense) (number : Rat) :
    sense.opposite.orient (-number) = sense.orient number := by
  cases sense with
  | maximize => exact neg_neg number
  | minimize => rfl

end Sense

namespace Problem

/-- The problem with every objective coefficient negated and the other sense. -/
def opposite (problem : Problem Rat) : Problem Rat :=
  { problem with
    objective := problem.objective.map fun coefficient => -coefficient
    sense := problem.sense.opposite }

@[simp] theorem opposite_opposite (problem : Problem Rat) : problem.opposite.opposite = problem := by
  have negated : (fun number : Rat => -number) ∘ (fun number => -number) = id :=
    funext neg_neg
  unfold opposite
  simp only [List.map_map, negated, List.map_id, Sense.opposite_opposite]

variable {problem : Problem Rat}

theorem fault?_opposite : problem.opposite.fault? = problem.fault? := by
  have length : problem.opposite.objective.length = problem.objective.length :=
    List.length_map _
  have finite : problem.opposite.objective.all Scalar.isFinite =
      problem.objective.all Scalar.isFinite :=
    List.all_map
  unfold fault?
  rw [length, finite]
  rfl

theorem Valid.opposite (valid : problem.Valid) : problem.opposite.Valid :=
  fault?_eq_none_iff.1 (fault?_opposite.trans (fault?_eq_none_iff.2 valid))

/-- The two problems are refused for one reason. -/
theorem validate_opposite (problem : Problem Rat) :
    problem.opposite.validate = problem.validate.map fun valid => ⟨valid.down.opposite⟩ := by
  cases found : problem.fault? with
  | some fault =>
    rw [validate_of_fault found, validate_of_fault (fault?_opposite.trans found)]
    rfl
  | none =>
    have valid := fault?_eq_none_iff.1 found
    rw [problem.validate_of_valid valid, problem.opposite.validate_of_valid valid.opposite]
    rfl

theorem objectiveCoefficient_opposite (valid : problem.Valid) (j : Fin problem.numVars) :
    problem.opposite.objectiveCoefficient valid.opposite j =
      -problem.objectiveCoefficient valid j :=
  List.getElem_map _

theorem columnName_opposite (problem : Problem Rat) : problem.opposite.columnName =
    problem.columnName :=
  funext fun column => by cases column <;> rfl

theorem entry_opposite (valid : problem.Valid) :
    problem.opposite.entry valid.opposite = problem.entry valid :=
  funext fun _ => funext fun column => by cases column <;> rfl

/-- A column costs the same in both problems. -/
theorem cost_opposite (valid : problem.Valid) :
    problem.opposite.cost valid.opposite = problem.cost valid := by
  refine funext fun column => ?_
  cases column with
  | decision j =>
    refine congrArg BigM.ofScalar ?_
    exact (congrArg problem.sense.opposite.orient (objectiveCoefficient_opposite valid j)).trans
      (problem.sense.orient_opposite_neg _)
  | slack i | surplus i | artificial i => rfl

end Problem

/-- The two problems have one standard form. -/
theorem StandardForm.ofProblem_opposite {problem : Problem Rat} (valid : problem.Valid) :
    ofProblem problem.opposite valid.opposite = ofProblem problem valid := by
  -- all that a form takes from the problem beside its rows are these three functions of a column
  have built : ∀ name entry cost, name = problem.columnName → entry = problem.entry valid →
      cost = problem.cost valid →
      ({ ofProblem problem valid with
          names := problem.columnVector.map name
          a := DenseMatrix.ofFn fun i j => entry i (problem.columnVector.get j)
          costs := problem.columnVector.map cost } : StandardForm Rat) =
        ofProblem problem valid := by
    rintro _ _ _ rfl rfl rfl
    rfl
  exact built _ _ _ problem.columnName_opposite (Problem.entry_opposite valid)
    (Problem.cost_opposite valid)

/-! ### Negated results -/

namespace Outcome

/-- The outcome with its objective negated. -/
def negated : Outcome Rat → Outcome Rat
  | optimal values objective => optimal values (-objective)
  | infeasible => infeasible
  | unbounded sense => unbounded sense.opposite
  | notConverged => notConverged

theorem status_negated (outcome : Outcome Rat) : outcome.negated.status = outcome.status := by
  cases outcome <;> rfl

theorem values_negated (outcome : Outcome Rat) : outcome.negated.values = outcome.values := by
  cases outcome <;> rfl

/-- A negated outcome reports the negative objective, also where it is infinite. -/
theorem objectiveValue_negated (outcome : Outcome Rat) :
    outcome.negated.objectiveValue = outcome.objectiveValue.map Extended.negate := by
  cases outcome with
  | optimal values objective => rfl
  | infeasible => rfl
  | unbounded sense => cases sense <;> rfl
  | notConverged => rfl

end Outcome

/-- The solution with its objective negated. Its steps stay. -/
def Solution.negated (solution : Solution Rat) : Solution Rat :=
  { solution with outcome := solution.outcome.negated }

/-- The solution of the revised method with its objective negated. Its steps stay. -/
def RevisedSolution.negated (solution : RevisedSolution Rat) : RevisedSolution Rat :=
  { solution with outcome := solution.outcome.negated }

/-! ### The tableau method -/

namespace Run

variable {form : StandardForm Rat}

/-- The run that reports in the other sense. -/
def opposite (run : Run form) : Run form := { run with sense := run.sense.opposite }

/-- A step does not look at the sense. -/
theorem step_opposite (run : Run form) : run.opposite.step = (run.step.1, run.step.2.opposite) := by
  have made := run.stepOf_step
  generalize run.step = result at made ⊢
  refine StepOf.step_eq ?_
  cases made with
  | idle status ended => exact .idle status ended
  | settled running stopped => exact .settled running stopped
  | capped column running entered cap => exact .capped column running entered cap
  | unbounded column running entered below stuck =>
    exact .unbounded column running entered below stuck
  | pivoted column row running entered below left =>
    exact .pivoted column row running entered below left

theorem afterSteps_opposite (count : Nat) (run : Run form) :
    run.opposite.afterSteps count = (run.afterSteps count).opposite := by
  induction count generalizing run with
  | zero => rfl
  | succ count inductionHypothesis =>
    rw [afterSteps, afterSteps, step_opposite, inductionHypothesis]

theorem complete_opposite (run : Run form) : run.opposite.complete = run.complete.opposite := by
  unfold complete
  rw [stepAtMost_eq_afterSteps, stepAtMost_eq_afterSteps]
  exact afterSteps_opposite _ run

theorem outcome_opposite (run : Run form) : run.opposite.outcome = run.outcome.negated := by
  have objective : run.opposite.objectiveValue = -run.objectiveValue :=
    run.sense.orient_opposite _
  have status : run.opposite.status = run.status := rfl
  unfold outcome
  rw [objective, status]
  cases run.status with
  | none => rfl
  | some status => cases status <;> rfl

theorem solution_opposite (run : Run form) : run.opposite.solution = run.solution.negated :=
  congrArg (fun outcome => { run.solution with outcome }) run.outcome_opposite

end Run

namespace Solver

variable (solver : Solver Rat) (problem : Problem Rat)

/-- Both problems are refused for one reason, or started from one form. -/
theorem start_opposite :
    solver.start problem.opposite =
      (solver.start problem).map fun started => ⟨started.1, started.2.opposite⟩ := by
  unfold start
  rw [problem.validate_opposite]
  cases problem.validate with
  | error fault => rfl
  | ok evidence =>
    show Except.ok (⟨_, Run.initial solver problem.sense.opposite
      (.ofProblem problem.opposite evidence.down.opposite)⟩ :
        (form : StandardForm Rat) × Run form) = _
    rw [StandardForm.ofProblem_opposite evidence.down]
    rfl

theorem solve_opposite :
    solver.solve problem.opposite = (solver.solve problem).map Solution.negated := by
  unfold solve
  rw [start_opposite]
  cases solver.start problem with
  | error fault => rfl
  | ok started =>
    refine congrArg Except.ok ?_
    show started.2.opposite.complete.solution = _
    rw [Run.complete_opposite, Run.solution_opposite]

end Solver

/-! ### The revised method -/

namespace RevisedSimplex

/-- The method that reports in the other sense. -/
abbrev opposite (engine : RevisedSimplex Rat) : RevisedSimplex Rat :=
  { engine with sense := engine.sense.opposite }

/-- The method with another cap and another tolerance. -/
def withLimits (engine : RevisedSimplex Rat) (cap : Nat) (tolerance : Rat) : RevisedSimplex Rat :=
  { engine with maxIterations := cap, tolerance }

variable (engine : RevisedSimplex Rat)

theorem examine_opposite (mayExchange : Bool)
    (state : RevisedState Rat engine.numRows engine.numColumns) :
    engine.opposite.examine mayExchange state = engine.examine mayExchange state :=
  engine.examine_restarted engine.inverse engine.numVars engine.sense.opposite mayExchange state

/-- An iteration does not look at the sense, so the iterations are the same. -/
theorem iterate_opposite (remaining : Nat)
    (earlier : Array (RevisedStep Rat engine.numRows engine.numColumns))
    (state : RevisedState Rat engine.numRows engine.numColumns) :
    engine.opposite.iterate remaining earlier state = engine.iterate remaining earlier state := by
  induction remaining generalizing earlier state with
  | zero => exact congrArg (Prod.mk earlier) (engine.examine_opposite false state)
  | succ remaining inductionHypothesis =>
    have examined := engine.examine_opposite true state
    cases decided : (engine.examine true state).decision with
    | exchange entering reducedCost direction ratios leaving theta =>
      have decidedOpposite := (congrArg RevisedStep.decision examined).trans decided
      rw [iterate_of_exchange decided, iterate_of_exchange decidedOpposite, examined]
      exact inductionHypothesis _ _
    | optimal | notConverged | unbounded =>
      have stopped := congrArg RevisedDecision.leaving? decided
      have stoppedOpposite :=
        congrArg RevisedDecision.leaving? ((congrArg RevisedStep.decision examined).trans decided)
      rw [iterate_of_leaving_eq_none stopped, iterate_of_leaving_eq_none stoppedOpposite, examined]

theorem outcomeOf_opposite (step : RevisedStep Rat engine.numRows engine.numColumns) :
    engine.opposite.outcomeOf step = (engine.outcomeOf step).negated := by
  have positive : engine.opposite.hasPositiveArtificial step =
      engine.hasPositiveArtificial step := rfl
  have sense : engine.opposite.sense = engine.sense.opposite := rfl
  unfold outcomeOf
  rw [positive, sense]
  cases step.decision with
  | optimal =>
    cases engine.hasPositiveArtificial step with
    | true => rfl
    | false =>
      cases engine.sense with
      | maximize => exact congrArg (Outcome.optimal _) (neg_neg _).symm
      | minimize => rfl
  | notConverged | unbounded | exchange => rfl

theorem solve_opposite : engine.opposite.solve = engine.solve.negated := by
  have iterated : engine.opposite.iterate engine.maxIterations #[]
      ⟨0, engine.basis, engine.inverse⟩ =
        engine.iterate engine.maxIterations #[] ⟨0, engine.basis, engine.inverse⟩ :=
    engine.iterate_opposite _ _ _
  cases run : engine.iterate engine.maxIterations #[] ⟨0, engine.basis, engine.inverse⟩ with
  | mk earlier final =>
    rw [run] at iterated
    rw [solve_of_iterate run]
    refine (solve_of_iterate iterated).trans ?_
    exact congrArg (RevisedSolution.mk _ _ engine.names earlier final)
      (engine.outcomeOf_opposite final)

theorem ofProblem_opposite (problem : Problem Rat) :
    ofProblem problem.opposite = (ofProblem problem).map opposite := by
  unfold ofProblem
  rw [problem.validate_opposite]
  cases problem.validate with
  | error fault => rfl
  | ok evidence =>
    exact congrArg (fun form => Except.ok (ofForm form problem.sense.opposite))
      (StandardForm.ofProblem_opposite evidence.down)

/-- With any cap and any tolerance both problems are solved by the same iterations. -/
theorem solve_ofProblem_opposite (problem : Problem Rat) (cap : Nat) (tolerance : Rat) :
    (ofProblem problem.opposite).map (fun engine => (engine.withLimits cap tolerance).solve) =
      (ofProblem problem).map fun engine => (engine.withLimits cap tolerance).solve.negated := by
  rw [ofProblem_opposite]
  cases ofProblem problem with
  | error fault => rfl
  | ok engine => exact congrArg Except.ok (engine.withLimits cap tolerance).solve_opposite

end RevisedSimplex

/-! ### The search -/

/-- The reason with its bound negated. -/
def PruneReason.negated : PruneReason Rat → PruneReason Rat
  | infeasible => infeasible
  | notSolved status => notSolved status
  | bounded incumbent sense => bounded incumbent.negate sense.opposite

/-- The fate with the bound negated that it may name. -/
def NodeFate.negated {k : Nat} : NodeFate Rat k → NodeFate Rat k
  | pruned reason => pruned reason.negated
  | integral => integral
  | branched variableIndex value => branched variableIndex value

/-- The node with the objectives of its relaxation and its fate negated. Its place and its
constraints stay. -/
def SearchNode.negated {k : Nat} (node : SearchNode Rat k) : SearchNode Rat k :=
  { node with relaxation := node.relaxation.negated, fate := node.fate.negated }

/-- The incumbent with its objective negated. -/
def Incumbent.negated (incumbent : Incumbent Rat) : Incumbent Rat :=
  { incumbent with objective := -incumbent.objective }

/-- The tree with every objective negated. -/
def SearchTree.negated {k : Nat} (tree : SearchTree Rat k) : SearchTree Rat k where
  nodes := tree.nodes.map SearchNode.negated
  best := tree.best.map Incumbent.negated
  limitReached := tree.limitReached

/-- The state with every objective negated. -/
def SearchState.negated {k : Nat} (state : SearchState Rat k) : SearchState Rat k where
  nextId := state.nextId
  nodes := state.nodes.map SearchNode.negated
  best := state.best.map Incumbent.negated

namespace BranchAndBound

theorem incumbentObjective_negated (sense : Sense) (best : Option (Incumbent Rat)) :
    incumbentObjective sense.opposite (best.map Incumbent.negated) =
      (incumbentObjective sense best).negate := by
  cases best with
  | some incumbent => cases sense <;> rfl
  | none => cases sense <;> rfl

/-- Negated objectives are compared the other way, also with an infinity. -/
theorem cannotImprove_negated (sense : Sense) (incumbent : Extended Rat) (objective : Rat) :
    cannotImprove sense.opposite incumbent.negate (-objective) =
      cannotImprove sense incumbent objective := by
  cases incumbent with
  | negInf => cases sense <;> rfl
  | posInf => cases sense <;> rfl
  | finite bound =>
    cases sense with
    | maximize =>
      refine decide_eq_decide.2 (?_ : -bound - Scalar.epsilon ≤ -objective ↔ _)
      rw [← neg_add', neg_le_neg_iff]
    | minimize =>
      refine decide_eq_decide.2 (?_ : -objective ≤ -bound + Scalar.epsilon ↔ _)
      rw [neg_le, neg_add', neg_neg]

variable (settings : BranchAndBound Rat)

section Judging

variable {k : Nat} (sense : Sense) (integral : Vector Bool k) (best : Option (Incumbent Rat))

theorem fateOf_negated (outcome : Outcome Rat) :
    settings.fateOf sense.opposite integral (best.map Incumbent.negated) outcome.negated =
      (settings.fateOf sense integral best outcome).negated := by
  cases outcome with
  | infeasible | unbounded | notConverged => rfl
  | optimal values objective =>
    unfold fateOf Outcome.negated
    dsimp only
    rw [incumbentObjective_negated, cannotImprove_negated]
    cases cannotImprove sense (incumbentObjective sense best) objective with
    | true => rfl
    | false =>
      cases fractionalVariable? settings.integerTolerance integral values with
      | none => rfl
      | some found => rfl

theorem updateBest_negated (id : Nat) (fate : NodeFate Rat k) (outcome : Outcome Rat) :
    updateBest integral id (best.map Incumbent.negated) fate.negated outcome.negated =
      (updateBest integral id best fate outcome).map Incumbent.negated := by
  cases fate with
  | pruned reason => rfl
  | branched variableIndex value => rfl
  | integral => cases outcome <;> rfl

end Judging

variable {problem : Problem Rat} (integral : Vector Bool problem.numVars)

/-- The children do not depend on an objective. -/
theorem childrenOf_negated (pending : PendingNode Rat) (nextId : Nat)
    (fate : NodeFate Rat problem.numVars) :
    childrenOf problem.opposite pending nextId fate.negated =
      childrenOf problem pending nextId fate := by
  cases fate <;> rfl

variable {settings integral} {pending : PendingNode Rat}
  {state later : SearchState Rat problem.numVars} {children : List (PendingNode Rat)}

/-- A visit lists the negated node and leaves the same children. -/
theorem Visit.opposite {node : SearchNode Rat problem.numVars}
    (visit : Visit settings problem integral pending state node later children) :
    Visit settings problem.opposite integral pending state.negated node.negated later.negated
      children where
  place := visit.place
  solved := (settings.solver.solve_opposite (problem.withConstraints pending.constraints)).trans
    (congrArg (Except.map Solution.negated) visit.solved)
  fate := (congrArg NodeFate.negated visit.fate).trans
    (settings.fateOf_negated problem.sense integral state.best node.relaxation.outcome).symm
  spawned := visit.spawned.trans (childrenOf_negated pending state.nextId node.fate).symm
  nextId := visit.nextId
  nodes := (congrArg (Array.map SearchNode.negated) visit.nodes).trans Array.map_push
  best := (congrArg (Option.map Incumbent.negated) visit.best).trans
    (updateBest_negated integral state.best pending.id node.fate node.relaxation.outcome).symm

theorem visit_opposite (settings : BranchAndBound Rat) (integral : Vector Bool problem.numVars)
    (pending : PendingNode Rat) (state : SearchState Rat problem.numVars) :
    settings.visit problem.opposite integral pending state.negated =
      (settings.visit problem integral pending state).map fun result =>
        (result.1.negated, result.2) := by
  cases visited : settings.visit problem integral pending state with
  | error fault =>
    refine visit_eq_error_iff.2 ?_
    refine (settings.solver.solve_opposite (problem.withConstraints pending.constraints)).trans ?_
    rw [visit_eq_error_iff.1 visited]
    rfl
  | ok result =>
    obtain ⟨node, visit⟩ := exists_visit visited
    exact visit.opposite.visit_eq

/-- From negated states the two searches go the same way. -/
theorem explore_opposite (settings : BranchAndBound Rat)
    (integral : Vector Bool problem.numVars) (remaining : Nat) (stack : List (PendingNode Rat))
    (state : SearchState Rat problem.numVars) :
    settings.explore problem.opposite integral remaining stack state.negated =
      (settings.explore problem integral remaining stack state).map SearchTree.negated := by
  induction remaining generalizing stack state with
  | zero => cases stack <;> rfl
  | succ remaining inductionHypothesis =>
    cases stack with
    | nil => rfl
    | cons pending rest =>
      have opposite := visit_opposite settings integral pending state
      cases visited : settings.visit problem integral pending state with
      | error fault =>
        rw [visited] at opposite
        rw [explore_of_visit_error remaining visited]
        exact explore_of_visit_error remaining opposite
      | ok result =>
        rw [visited] at opposite
        rw [explore_of_visit remaining visited]
        exact (explore_of_visit remaining opposite).trans (inductionHypothesis _ _)

/-- The search of the opposite problem lists the negated nodes. -/
theorem solveMixed_opposite (settings : BranchAndBound Rat) (problem : Problem Rat)
    (mask : List Bool) :
    settings.solveMixed problem.opposite mask =
      (settings.solveMixed problem mask).map SearchTree.negated := by
  cases checked : problem.validate with
  | error fault =>
    unfold solveMixed
    rw [problem.validate_opposite, checked]
    rfl
  | ok evidence =>
    cases sized : vectorOf? problem.numVars mask with
    | none =>
      have sizedOpposite : vectorOf? problem.opposite.numVars mask = none := sized
      unfold solveMixed
      rw [problem.validate_opposite, checked, sized, sizedOpposite]
      rfl
    | some integral =>
      have explored := explore_opposite settings integral settings.maxNodes
        [rootNode problem] ⟨1, #[], none⟩
      have begun : (⟨1, #[], none⟩ : SearchState Rat problem.numVars).negated = ⟨1, #[], none⟩ :=
        congrArg (fun nodes => SearchState.mk 1 nodes none) Array.map_empty
      rw [begun] at explored
      rw [solveMixed_eq_explore settings evidence.down sized]
      exact (solveMixed_eq_explore settings evidence.down.opposite sized).trans explored

end BranchAndBound

end LinearProgramming
