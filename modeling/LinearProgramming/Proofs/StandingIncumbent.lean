/-
This file proves that a search judges each node by the incumbent of its time.

The incumbent of a time is not listed, but it can be read off the listing: it is what the last
integral node before recorded. A node that is cut off by its bound shows exactly that objective and
does not beat it, and every node that is not pruned beats it. So the objectives of the integral
nodes get better from one to the next.
-/

import Mathlib
import LinearProgramming.Proofs.SearchLimit

namespace LinearProgramming

variable {k : Nat}

/-- The last node of a listing whose point became the incumbent. -/
def lastIntegral? {α : Type} (nodes : List (SearchNode α k)) : Option (SearchNode α k) :=
  (nodes.filter SearchNode.isIntegral).getLast?

namespace SearchNode

/-- The relaxation of the node has an optimal point with an objective. -/
def HasObjective {α : Type} (node : SearchNode α k) (objective : α) : Prop :=
  node.relaxation.outcome.objectiveValue = some (.finite objective)

theorem pruneReason?_eq_some_iff {α : Type} {node : SearchNode α k} {reason : PruneReason α} :
    node.pruneReason? = some reason ↔ node.fate = .pruned reason := by
  unfold pruneReason?
  cases node.fate <;> simp

/-- An integral node is not pruned. -/
theorem pruneReason?_of_isIntegral {α : Type} {node : SearchNode α k}
    (isIntegral : node.isIntegral = true) : node.pruneReason? = none := by
  unfold SearchNode.isIntegral at isIntegral
  unfold pruneReason?
  cases fate : node.fate with
  | integral | branched j value => rfl
  | pruned reason =>
    rw [fate] at isIntegral
    cases isIntegral

/-- The relaxation of a node is better than that of an earlier one in the author's sense, by more
than the default tolerance. -/
def Beats (sense : Sense) (earlier node : SearchNode Rat k) : Prop :=
  ∃ held objective, earlier.HasObjective held ∧ node.HasObjective objective ∧
    ¬ sense.AtMostBetter Scalar.epsilon objective held

/-- A node is judged by the node that holds the incumbent, if there is one. When it is cut off by
its bound, it shows the objective of that node, and its own one is better by the default tolerance
at most. When it is not pruned, it has an optimal point and beats that node. -/
structure IsJudgedBy (sense : Sense) (standing : Option (SearchNode Rat k))
    (node : SearchNode Rat k) : Prop where
  bounded : ∀ bound direction, node.pruneReason? = some (.bounded bound direction) →
    ∃ earlier held objective, standing = some earlier ∧ earlier.HasObjective held ∧
      node.HasObjective objective ∧ bound = .finite held ∧ direction = sense ∧
      sense.AtMostBetter Scalar.epsilon objective held
  kept : node.pruneReason? = none → (∃ objective, node.HasObjective objective) ∧
    ∀ earlier, standing = some earlier → Beats sense earlier node

end SearchNode

/-- The bookkeeping of the incumbent along a listing: each integral node beats the one before it,
the incumbent is what the last one recorded, and each node is judged by the last integral node
before it. -/
structure Incumbent.IsTracked (sense : Sense) (mask : List Bool) (nodes : Array (SearchNode Rat k))
    (best : Option (Incumbent Rat)) : Prop where
  improves : (nodes.toList.filter SearchNode.isIntegral).IsChain (SearchNode.Beats sense)
  recorded : Incumbent.IsLastRecorded mask nodes.toList best
  judged : ∀ (i : Nat) node, nodes[i]? = some node →
    node.IsJudgedBy sense (lastIntegral? (nodes.toList.take i))

namespace BranchAndBound

/-! ### Judging one node -/

section Judging

variable {settings : BranchAndBound Rat} {sense : Sense} {integral : Vector Bool k}
  {best : Option (Incumbent Rat)} {outcome : Outcome Rat}

/-- A node that is cut off by its bound has an optimal point that hardly betters the incumbent, and
shows the objective of the incumbent. -/
theorem exists_of_fateOf_bounded {bound : Extended Rat} {direction : Sense}
    (cut : settings.fateOf sense integral best outcome = .pruned (.bounded bound direction)) :
    ∃ incumbent objective, best = some incumbent ∧
      outcome.objectiveValue = some (.finite objective) ∧ bound = .finite incumbent.objective ∧
      direction = sense ∧ sense.AtMostBetter Scalar.epsilon objective incumbent.objective := by
  cases outcome with
  | infeasible | unbounded _ | notConverged => cases cut
  | optimal values objective =>
    unfold fateOf at cut
    dsimp only at cut
    split at cut
    · rename_i cannot
      obtain ⟨incumbent, rfl, close⟩ := cannotImprove_iff.1 cannot
      cases cut
      exact ⟨incumbent, objective, rfl, rfl, rfl, rfl, close⟩
    · split at cut <;> cases cut

/-- A node that is not pruned has an optimal point that betters every incumbent by more than the
default tolerance. -/
theorem exists_of_fateOf_kept
    (kept : ∀ reason, settings.fateOf sense integral best outcome ≠ .pruned reason) :
    ∃ objective, outcome.objectiveValue = some (.finite objective) ∧
      ∀ incumbent, best = some incumbent →
        ¬ sense.AtMostBetter Scalar.epsilon objective incumbent.objective := by
  cases outcome with
  | infeasible | unbounded _ | notConverged => exact absurd rfl (kept _)
  | optimal values objective =>
    refine ⟨objective, rfl, fun incumbent held close => ?_⟩
    exact kept (.bounded (incumbentObjective sense best) sense)
      (if_pos (cannotImprove_iff.2 ⟨incumbent, held, close⟩))

end Judging

/-- The incumbent that the last integral node recorded has the objective of that node, and without
such a node there is none. -/
theorem lastIntegral?_cases {mask : List Bool} {nodes : List (SearchNode Rat k)}
    {best : Option (Incumbent Rat)} (recorded : Incumbent.IsLastRecorded mask nodes best) :
    (lastIntegral? nodes = none ∧ best = none) ∨
      ∃ node incumbent, lastIntegral? nodes = some node ∧ best = some incumbent ∧
        node.HasObjective incumbent.objective := by
  unfold Incumbent.IsLastRecorded at recorded
  unfold lastIntegral?
  split at recorded
  · rename_i noneIntegral
    exact Or.inl ⟨noneIntegral, recorded⟩
  · rename_i node last
    obtain ⟨values, objective, outcome, held⟩ := recorded
    refine Or.inr ⟨node, _, last, held, ?_⟩
    unfold SearchNode.HasObjective
    rw [outcome]
    rfl

/-! ### One visit -/

variable {settings : BranchAndBound Rat} {problem : Problem Rat}
  {integral : Vector Bool problem.numVars} {pending : PendingNode Rat}
  {node : SearchNode Rat problem.numVars} {state later : SearchState Rat problem.numVars}
  {children : List (PendingNode Rat)}

/-- A visited node is judged by the last integral node before it. -/
theorem Visit.isJudgedBy
    (visit : Visit settings problem integral pending state node later children)
    (recorded : Incumbent.IsLastRecorded integral.toList state.nodes.toList state.best) :
    node.IsJudgedBy problem.sense (lastIntegral? state.nodes.toList) where
  bounded bound direction pruned := by
    have cut := visit.fate.symm.trans (SearchNode.pruneReason?_eq_some_iff.1 pruned)
    obtain ⟨incumbent, objective, held, has, rfl, rfl, close⟩ := exists_of_fateOf_bounded cut
    rcases lastIntegral?_cases recorded with ⟨_, noBest⟩ | ⟨earlier, other, last, same, hasHeld⟩
    · cases noBest.symm.trans held
    · cases same.symm.trans held
      exact ⟨earlier, incumbent.objective, objective, last, hasHeld, has, rfl, rfl, close⟩
  kept notPruned := by
    have kept : ∀ reason, node.fate ≠ .pruned reason := fun reason cut => by
      rw [SearchNode.pruneReason?_eq_some_iff.2 cut] at notPruned
      cases notPruned
    rw [visit.fate] at kept
    obtain ⟨objective, has, beats⟩ := exists_of_fateOf_kept kept
    refine ⟨⟨objective, has⟩, fun earlier standing => ?_⟩
    rcases lastIntegral?_cases recorded with ⟨noLast, _⟩ | ⟨other, incumbent, last, held, hasHeld⟩
    · cases noLast.symm.trans standing
    · cases last.symm.trans standing
      exact ⟨incumbent.objective, objective, hasHeld, has, beats incumbent held⟩

/-- A visit keeps the bookkeeping. -/
theorem Visit.isTracked
    (visit : Visit settings problem integral pending state node later children)
    (tracked : Incumbent.IsTracked problem.sense integral.toList state.nodes state.best) :
    Incumbent.IsTracked problem.sense integral.toList later.nodes later.best := by
  have judged := visit.isJudgedBy tracked.recorded
  refine ⟨?_, visit.isLastRecorded tracked.recorded, fun i listed found => ?_⟩
  · rw [visit.nodes, Array.toList_push, List.filter_append]
    by_cases isIntegral : node.isIntegral = true
    · -- the node beats the last integral one, since an integral node is not pruned
      rw [List.filter_cons_of_pos isIntegral, List.filter_nil]
      have beats := (judged.kept (SearchNode.pruneReason?_of_isIntegral isIntegral)).2
      refine List.isChain_append.2 ⟨tracked.improves, .singleton node, fun earlier last => ?_⟩
      rintro _ ⟨⟩
      exact beats earlier last
    · rw [List.filter_cons_of_neg isIntegral, List.filter_nil, List.append_nil]
      exact tracked.improves
  · rw [visit.nodes] at found ⊢
    rw [Array.toList_push]
    rw [Array.getElem?_push] at found
    split at found
    · rename_i last
      obtain rfl := Option.some.inj found
      rw [last, List.take_left' state.nodes.length_toList]
      exact judged
    · have inRange := (Array.getElem?_eq_some_iff.1 found).1
      rw [List.take_append_of_le_length (Nat.le_of_lt inRange)]
      exact tracked.judged i listed found

end BranchAndBound

/-! ### The whole search -/

/-- Every waiting node keeps the constraints of the problem, and the incumbent is kept track of. -/
structure TrackedSearch (problem : Problem Rat) (integral : Vector Bool problem.numVars)
    (stack : List (PendingNode Rat)) (state : SearchState Rat problem.numVars) : Prop where
  refines : ∀ pending ∈ stack, pending.Refines problem
  tracked : Incumbent.IsTracked problem.sense integral.toList state.nodes state.best

namespace TrackedSearch

variable {settings : BranchAndBound Rat} {problem : Problem Rat}
  {integral : Vector Bool problem.numVars} {pending : PendingNode Rat}
  {rest : List (PendingNode Rat)} {state : SearchState Rat problem.numVars}

theorem start (valid : problem.Valid) (integral : Vector Bool problem.numVars) :
    TrackedSearch problem integral [BranchAndBound.rootNode problem] ⟨1, #[], none⟩ where
  refines pending member := by
    rw [List.mem_singleton.1 member]
    exact ⟨fun _ kept => kept, valid.constraints_fit⟩
  tracked := ⟨.nil, rfl, fun _ _ impossible => nomatch impossible⟩

/-- The first waiting node can be visited, which keeps the invariant. -/
theorem visit (valid : problem.Valid)
    (invariant : TrackedSearch problem integral (pending :: rest) state) :
    ∃ later children, settings.visit problem integral pending state = .ok (later, children) ∧
      TrackedSearch problem integral (children ++ rest) later := by
  have refines := invariant.refines pending List.mem_cons_self
  obtain ⟨_, _, _, _, visited⟩ := BranchAndBound.visit_of_solve settings integral state
    (settings.solver.solve_eq_afterSteps (refines.valid valid)) rfl
  obtain ⟨node, visit⟩ := BranchAndBound.exists_visit visited
  refine ⟨_, _, visited, fun waiting member => ?_, visit.isTracked invariant.tracked⟩
  rcases List.mem_append.1 member with child | older
  · exact refines.childrenOf _ waiting child
  · exact invariant.refines waiting (List.mem_cons_of_mem _ older)

end TrackedSearch

namespace BranchAndBound

/-- The incumbent is kept track of. Whatever the settings, every search of a valid problem with a
mask of the right length returns a tree. Along its nodes the integral ones get better by more than
the default tolerance, the incumbent is what the last of them recorded, and every node is judged by
the incumbent of its time. -/
theorem solveMixed_isTracked (settings : BranchAndBound Rat) (problem : Problem Rat)
    (valid : problem.Valid) (mask : List Bool) (length : mask.length = problem.numVars) :
    ∃ tree, settings.solveMixed problem mask = .ok tree ∧
      Incumbent.IsTracked problem.sense mask tree.nodes tree.best := by
  obtain ⟨integral, sized, rfl⟩ := vectorOf?_of_length length
  obtain ⟨tree, explored, _, _, invariant, _⟩ := settings.explore_induction
    (TrackedSearch problem integral) (fun _ _ _ invariant => invariant.visit valid)
    settings.maxNodes (TrackedSearch.start valid integral)
  exact ⟨tree, (solveMixed_eq_explore settings valid sized).trans explored, invariant.tracked⟩

/-- The statement at a search that replaces its first incumbent, and cuts its last node off by the
bound of the second one. -/
theorem solveMixed_isTracked_knapsackProblem :
    knapsackProblem.Valid ∧ [true, true].length = knapsackProblem.numVars ∧
      ∃ tree, ({ solver := { tolerance := 0 } } : BranchAndBound Rat).solveMixed knapsackProblem
          [true, true] = .ok tree ∧
        Incumbent.IsTracked .maximize [true, true] tree.nodes tree.best ∧
        tree.nodes.toList.map SearchNode.isIntegral = [false, false, true, true, false] ∧
        tree.nodes.toList.map (fun node => node.pruneReason?.map PruneReason.text) =
          [none, none, none, none, some "Bounded (Z <= 20.00)"] := by
  refine ⟨knapsackProblem_valid, rfl, ?_⟩
  obtain ⟨tree, searched, tracked⟩ := solveMixed_isTracked { solver := { tolerance := 0 } }
    knapsackProblem knapsackProblem_valid [true, true] rfl
  have ran : (({ solver := { tolerance := 0 } } : BranchAndBound Rat).solveMixed knapsackProblem
      [true, true]).map (fun tree => (tree.nodes.toList.map SearchNode.isIntegral,
        tree.nodes.toList.map fun node => node.pruneReason?.map PruneReason.text)) =
      .ok ([false, false, true, true, false],
        [none, none, none, none, some "Bounded (Z <= 20.00)"]) := by decide +kernel
  rw [searched] at ran
  obtain ⟨integral, reasons⟩ := Prod.mk.inj (Except.ok.inj ran)
  exact ⟨tree, searched, tracked, integral, reasons⟩

end BranchAndBound

end LinearProgramming
