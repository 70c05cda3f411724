/-
This file proves that the node limit of a search only cuts its listing off.

Two searches that differ in their limits make the same visits until the smaller limit is reached:
a visit does not look at the limit, and what it leaves behind, the waiting nodes, the next free
number and the incumbent, is all that the next one starts from. So the shorter listing begins the
longer one, and nodes are left over exactly when the longer search solved more. The incumbent is
found in the listing itself: it is what the last node with an integral point recorded.
-/

import Mathlib
import LinearProgramming.Proofs.SearchCoverage
import LinearProgramming.Proofs.SearchRun

namespace LinearProgramming

variable {α : Type} [Scalar α]

/-- An incumbent is what the last integral node of a listing recorded: the number of the node, the
objective of its relaxation and the values of its relaxation, rounded on the mask. There is none
when no node is integral. -/
def Incumbent.IsLastRecorded {k : Nat} (mask : List Bool) (nodes : List (SearchNode α k))
    (best : Option (Incumbent α)) : Prop :=
  match (nodes.filter SearchNode.isIntegral).getLast? with
  | none => best = none
  | some node => ∃ values objective, node.relaxation.outcome = .optimal values objective ∧
      best = some ⟨node.id, objective, List.zipWith
        (fun value isIntegral => if isIntegral then Scalar.round value else value) values mask⟩

/-- A tree is what a search with a limit lists of another tree: its first nodes up to the limit,
with the incumbent that the last integral one among them recorded. It tells whether nodes were
left out. -/
structure SearchTree.IsCutAt {k : Nat} (limit : Nat) (mask : List Bool) (tree cut : SearchTree α k) :
    Prop where
  nodes : cut.nodes.toList = tree.nodes.toList.take limit
  limitReached : cut.limitReached = true ↔ limit < tree.nodes.size
  best : Incumbent.IsLastRecorded mask (tree.nodes.toList.take limit) cut.best

namespace BranchAndBound

variable {settings : BranchAndBound α} {problem : Problem α}
  {integral : Vector Bool problem.numVars} {pending : PendingNode α}
  {node : SearchNode α problem.numVars} {state later : SearchState α problem.numVars}
  {stack children : List (PendingNode α)} {tree : SearchTree α problem.numVars}

/-! ### The incumbent in the listing -/

/-- A visit of an integral node records its incumbent, and any other visit keeps the old one. -/
theorem Visit.isLastRecorded
    (visit : Visit settings problem integral pending state node later children)
    (recorded : Incumbent.IsLastRecorded integral.toList state.nodes.toList state.best) :
    Incumbent.IsLastRecorded integral.toList later.nodes.toList later.best := by
  unfold Incumbent.IsLastRecorded at recorded ⊢
  rw [visit.nodes, visit.best, Array.toList_push, List.filter_append]
  have judged := visit.fate
  unfold fateOf at judged
  cases outcome : node.relaxation.outcome with
  | optimal values objective =>
    cases fate : node.fate with
    | integral =>
      have integralNode : node.isIntegral = true := by rw [SearchNode.isIntegral, fate]
      rw [List.filter_cons_of_pos integralNode, List.filter_nil, List.getLast?_concat]
      have id : node.id = pending.id := congrArg PendingNode.id visit.place
      exact ⟨values, objective, outcome, by rw [id]; rfl⟩
    | pruned reason | branched j value =>
      have notIntegral : ¬ node.isIntegral = true := by simp [SearchNode.isIntegral, fate]
      rw [List.filter_cons_of_neg notIntegral, List.filter_nil, List.append_nil]
      exact recorded
  | infeasible | unbounded sense | notConverged =>
    rw [outcome] at judged
    have notIntegral : ¬ node.isIntegral = true := by simp [SearchNode.isIntegral, judged]
    rw [List.filter_cons_of_neg notIntegral, List.filter_nil, List.append_nil, judged]
    exact recorded

/-- The incumbent of a search is what its last integral node recorded. -/
theorem explore_isLastRecorded {remaining : Nat}
    (explored : settings.explore problem integral remaining [rootNode problem] ⟨1, #[], none⟩ =
      .ok tree) :
    Incumbent.IsLastRecorded integral.toList tree.nodes.toList tree.best := by
  have start : Incumbent.IsLastRecorded integral.toList
      ([] : List (SearchNode α problem.numVars)) none := rfl
  obtain ⟨_, _, recorded, _⟩ := explore_keeps
    (fun _ state => Incumbent.IsLastRecorded integral.toList state.nodes.toList state.best)
    (fun _ _ _ _ _ _ recorded visit => visit.isLastRecorded recorded) start explored
  exact recorded

/-! ### Two searches with different limits -/

/-- A search goes on listing behind the nodes it has listed. -/
theorem explore_extends {remaining : Nat}
    (explored : settings.explore problem integral remaining stack state = .ok tree) :
    state.nodes.toList <+: tree.nodes.toList := by
  obtain ⟨_, _, extended, _⟩ := explore_keeps
    (fun _ later => state.nodes.toList <+: later.nodes.toList)
    (fun _ _ _ node _ _ extended visit => by
      rw [visit.nodes, Array.toList_push]
      exact extended.trans (List.prefix_append _ _))
    (List.prefix_refl _) explored
  exact extended

/-- Where a search may make more visits than another, both start with the same ones. -/
theorem explore_of_fewer {few many : Nat} (fewer : few < many)
    (explored : settings.explore problem integral many stack state = .ok tree) :
    ∃ cut, settings.explore problem integral few stack state = .ok cut ∧
      cut.nodes.toList = tree.nodes.toList.take (state.nodes.size + few) ∧
      (cut.limitReached = true ↔ state.nodes.size + few < tree.nodes.size) := by
  induction few generalizing many stack state with
  | zero =>
    cases stack with
    | nil =>
      cases many <;> cases explored
      all_goals exact ⟨_, rfl, by simp, by simp⟩
    | cons pending rest =>
      -- the longer search makes at least one more visit
      obtain ⟨many, rfl⟩ := Nat.exists_eq_add_one_of_ne_zero (Nat.ne_of_gt fewer)
      obtain ⟨node, later, children, visit, goesOn⟩ := exists_visit_of_explore explored
      have extended := explore_extends goesOn
      rw [visit.nodes, Array.toList_push] at extended
      have longer := extended.length_le
      rw [List.length_append, List.length_singleton, Array.length_toList,
        Array.length_toList] at longer
      refine ⟨_, rfl, ?_, iff_of_true rfl longer⟩
      have listed := (List.prefix_append _ _).trans extended
      rw [Nat.add_zero, ← Array.length_toList]
      exact List.prefix_iff_eq_take.1 listed
  | succ few inductionHypothesis =>
    obtain ⟨many, rfl⟩ := Nat.exists_eq_add_one_of_ne_zero (Nat.ne_zero_of_lt fewer)
    cases stack with
    | nil =>
      cases explored
      exact ⟨_, rfl, by simp, by simp⟩
    | cons pending rest =>
      obtain ⟨later, children, visited, goesOn⟩ := visited_of_explore explored
      obtain ⟨node, visit⟩ := exists_visit visited
      have same := inductionHypothesis (Nat.lt_of_succ_lt_succ fewer) goesOn
      rw [visit.nodes, Array.size_push, Nat.add_right_comm] at same
      rwa [explore_of_visit few visited]

/-- A visit does not look at the limit, so neither does a search with a given number of visits. -/
theorem explore_withLimit (settings : BranchAndBound α) (problem : Problem α)
    (integral : Vector Bool problem.numVars) (limit remaining : Nat)
    (stack : List (PendingNode α)) (state : SearchState α problem.numVars) :
    { settings with maxNodes := limit }.explore problem integral remaining stack state =
      settings.explore problem integral remaining stack state := by
  induction remaining generalizing stack state with
  | zero => cases stack <;> rfl
  | succ remaining inductionHypothesis =>
    cases stack with
    | nil => rfl
    | cons pending rest =>
      rw [explore, explore]
      have same : { settings with maxNodes := limit }.visit problem integral pending state =
        settings.visit problem integral pending state := rfl
      rw [same]
      split
      · rfl
      · exact inductionHypothesis _ _

/-- The node limit only truncates. Whenever a search returns a tree, whatever its scalars compute,
the same search with a smaller limit returns the tree cut at that limit: its first nodes, with the
incumbent of the last integral one among them, and the limit is reported as reached exactly when
the search with the greater limit solved more nodes. -/
theorem solveMixed_isCutAt (settings : BranchAndBound α) (problem : Problem α) (mask : List Bool)
    {few many : Nat} (fewer : few < many) (tree : SearchTree α problem.numVars)
    (searched : { settings with maxNodes := many }.solveMixed problem mask = .ok tree) :
    ∃ cut, { settings with maxNodes := few }.solveMixed problem mask = .ok cut ∧
      tree.IsCutAt few mask cut := by
  obtain ⟨valid, integral, sized, rfl⟩ := sized_of_solveMixed searched
  rw [solveMixed_eq_explore _ valid sized, explore_withLimit] at searched
  obtain ⟨cut, explored, nodes, limitReached⟩ := explore_of_fewer fewer searched
  rw [Array.size_empty, Nat.zero_add] at nodes limitReached
  refine ⟨cut, ?_, nodes, limitReached, ?_⟩
  · rw [solveMixed_eq_explore _ valid sized, explore_withLimit]
    exact explored
  · rw [← nodes]
    exact explore_isLastRecorded explored

/-- The statement at a search that would solve one node more than its limit allows, and has its
incumbent already. -/
theorem solveMixed_isCutAt_knapsackProblem :
    ∃ tree cut, ({ solver := { tolerance := 0 }, maxNodes := 5 } : BranchAndBound Rat).solveMixed
        knapsackProblem [true, true] = .ok tree ∧
      ({ solver := { tolerance := 0 }, maxNodes := 4 } : BranchAndBound Rat).solveMixed
        knapsackProblem [true, true] = .ok cut ∧
      tree.IsCutAt 4 [true, true] cut ∧ cut.limitReached = true ∧
      tree.limitReached = false := by
  have ran : (({ solver := { tolerance := 0 }, maxNodes := 5 } : BranchAndBound Rat).solveMixed
      knapsackProblem [true, true]).map (fun tree => (tree.nodes.size, tree.limitReached)) =
        .ok (5, false) := by decide +kernel
  cases searched : ({ solver := { tolerance := 0 }, maxNodes := 5 } :
      BranchAndBound Rat).solveMixed knapsackProblem [true, true] with
  | error fault =>
    rw [searched] at ran
    cases ran
  | ok tree =>
    rw [searched] at ran
    obtain ⟨size, ended⟩ := Prod.mk.inj (Except.ok.inj ran)
    have fewer : 4 < 5 := by decide
    obtain ⟨cut, short, isCut⟩ := solveMixed_isCutAt
      ({ solver := { tolerance := 0 } } : BranchAndBound Rat) knapsackProblem [true, true] fewer
      tree searched
    exact ⟨tree, cut, rfl, short, isCut, isCut.limitReached.2 (fewer.trans_eq size.symm), ended⟩

end BranchAndBound

end LinearProgramming
