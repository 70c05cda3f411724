/-
This file follows a search from visit to visit, whatever its numbers compute.

A visit solves the first waiting node, lists it, and puts its children in front of the nodes that
wait. So what every visit keeps holds at the end of a search, of the listed nodes and of the nodes
that are left. A search that stops early has listed exactly as many nodes as it was allowed, and
any other has no node left.
-/

import Mathlib
import LinearProgramming.BranchAndBound

namespace LinearProgramming

variable {α : Type}

/-- The place of a solved node: all that was known of it while it waited. -/
def SearchNode.place {k : Nat} (node : SearchNode α k) : PendingNode α where
  id := node.id
  parent := node.parent
  depth := node.depth
  constraints := node.constraints
  added := node.added

namespace BranchAndBound

variable [Scalar α] {settings : BranchAndBound α} {problem : Problem α}
  {integral : Vector Bool problem.numVars} {pending : PendingNode α}
  {state later : SearchState α problem.numVars} {children : List (PendingNode α)}

/-- All that a visit of a waiting node does: it lists the node with the relaxation of its
constraints and the fate that follows, and leaves the children that go with the fate. -/
structure Visit (settings : BranchAndBound α) (problem : Problem α)
    (integral : Vector Bool problem.numVars) (pending : PendingNode α)
    (state : SearchState α problem.numVars) (node : SearchNode α problem.numVars)
    (later : SearchState α problem.numVars) (children : List (PendingNode α)) : Prop where
  place : node.place = pending
  solved : settings.solver.solve (problem.withConstraints pending.constraints) =
    .ok node.relaxation
  fate : node.fate =
    settings.fateOf problem.sense integral state.best node.relaxation.outcome
  spawned : children = childrenOf problem pending state.nextId node.fate
  nextId : later.nextId = state.nextId + children.length
  nodes : later.nodes = state.nodes.push node
  best : later.best =
    updateBest integral pending.id state.best node.fate node.relaxation.outcome

theorem exists_visit
    (visited : settings.visit problem integral pending state = .ok (later, children)) :
    ∃ node, Visit settings problem integral pending state node later children := by
  unfold visit at visited
  cases solved : settings.solver.solve (problem.withConstraints pending.constraints) with
  | error fault =>
    rw [solved] at visited
    cases visited
  | ok relaxation =>
    rw [solved] at visited
    cases visited
    exact ⟨⟨pending.id, pending.parent, pending.depth, pending.constraints, pending.added,
      relaxation, _⟩, rfl, solved, rfl, rfl, rfl, rfl, rfl⟩

/-- What a visit does settles what it returns. -/
theorem Visit.visit_eq {node : SearchNode α problem.numVars}
    (visit : Visit settings problem integral pending state node later children) :
    settings.visit problem integral pending state = .ok (later, children) := by
  obtain ⟨rfl, solved, fate, rfl, nextId, nodes, best⟩ := visit
  obtain ⟨_, _, _⟩ := later
  obtain ⟨_, _, _, _, _, _, _⟩ := node
  dsimp only at solved fate nextId nodes best
  subst fate nextId nodes best
  unfold BranchAndBound.visit
  dsimp only [SearchNode.place] at solved ⊢
  rw [solved]
  rfl

/-- A visit fails for the reason for which its relaxation does. -/
theorem visit_eq_error_iff {fault : ProblemError} :
    settings.visit problem integral pending state = .error fault ↔
      settings.solver.solve (problem.withConstraints pending.constraints) = .error fault := by
  unfold visit
  cases settings.solver.solve (problem.withConstraints pending.constraints) with
  | error other =>
    constructor
    · intro failed
      cases failed
      rfl
    · intro failed
      cases failed
      rfl
  | ok relaxation => exact iff_of_false nofun nofun

variable {rest stack : List (PendingNode α)} {remaining : Nat}
  {tree : SearchTree α problem.numVars}

/-- After a visit a search goes on with the children in front of the nodes that wait. -/
theorem explore_of_visit (remaining : Nat)
    (visited : settings.visit problem integral pending state = .ok (later, children)) :
    settings.explore problem integral (remaining + 1) (pending :: rest) state =
      settings.explore problem integral remaining (children ++ rest) later := by
  rw [explore, visited]

/-- A search fails where a visit does. -/
theorem explore_of_visit_error (remaining : Nat) {fault : ProblemError}
    (failed : settings.visit problem integral pending state = .error fault) :
    settings.explore problem integral (remaining + 1) (pending :: rest) state = .error fault := by
  rw [explore, failed]

/-- A search that may go on and returns a tree has visited the first waiting node. -/
theorem visited_of_explore
    (explored : settings.explore problem integral (remaining + 1) (pending :: rest) state =
      .ok tree) :
    ∃ later children, settings.visit problem integral pending state = .ok (later, children) ∧
      settings.explore problem integral remaining (children ++ rest) later = .ok tree := by
  cases visited : settings.visit problem integral pending state with
  | error fault =>
    rw [explore_of_visit_error remaining visited] at explored
    cases explored
  | ok result =>
    rw [explore_of_visit remaining visited] at explored
    exact ⟨_, _, rfl, explored⟩

/-- A search that may go on visits the first waiting node and goes on from there. -/
theorem exists_visit_of_explore
    (explored : settings.explore problem integral (remaining + 1) (pending :: rest) state =
      .ok tree) :
    ∃ node later children, Visit settings problem integral pending state node later children ∧
      settings.explore problem integral remaining (children ++ rest) later = .ok tree := by
  obtain ⟨later, children, visited, goesOn⟩ := visited_of_explore explored
  obtain ⟨node, visit⟩ := exists_visit visited
  exact ⟨node, later, children, visit, goesOn⟩

/-- What each visit keeps holds at the end of a search, where nodes are left exactly when the limit
was reached. -/
theorem explore_keeps (holds : List (PendingNode α) → SearchState α problem.numVars → Prop)
    (next : ∀ pending rest state node later children, holds (pending :: rest) state →
      Visit settings problem integral pending state node later children →
        holds (children ++ rest) later) (begun : holds stack state)
    (explored : settings.explore problem integral remaining stack state = .ok tree) :
    ∃ left nextId, holds left ⟨nextId, tree.nodes, tree.best⟩ ∧
      (tree.limitReached = true ↔ left ≠ []) := by
  induction remaining generalizing stack state with
  | zero =>
    cases stack with
    | nil =>
      cases explored
      exact ⟨[], state.nextId, begun, by simp⟩
    | cons pending rest =>
      cases explored
      exact ⟨pending :: rest, state.nextId, begun, by simp⟩
  | succ remaining inductionHypothesis =>
    cases stack with
    | nil =>
      cases explored
      exact ⟨[], state.nextId, begun, by simp⟩
    | cons pending rest =>
      obtain ⟨node, later, children, visit, goesOn⟩ := exists_visit_of_explore explored
      exact inductionHypothesis (next _ _ _ _ _ _ begun visit) goesOn

/-- A search lists no more nodes than it is allowed, and all of them when it reaches the limit. -/
theorem explore_size
    (explored : settings.explore problem integral remaining stack state = .ok tree) :
    tree.nodes.size ≤ state.nodes.size + remaining ∧
      (tree.limitReached = true → tree.nodes.size = state.nodes.size + remaining) := by
  induction remaining generalizing stack state with
  | zero =>
    cases stack <;> cases explored <;> simp
  | succ remaining inductionHypothesis =>
    cases stack with
    | nil =>
      cases explored
      simp
    | cons pending rest =>
      obtain ⟨node, later, children, visit, goesOn⟩ := exists_visit_of_explore explored
      have listed := inductionHypothesis goesOn
      rw [visit.nodes, Array.size_push, Nat.add_right_comm] at listed
      exact listed

/-- A search of a valid problem with a mask of the right length explores from the root. -/
theorem solveMixed_eq_explore (settings : BranchAndBound α) (valid : problem.Valid)
    {mask : List Bool} (sized : vectorOf? problem.numVars mask = some integral) :
    settings.solveMixed problem mask =
      settings.explore problem integral settings.maxNodes [rootNode problem] ⟨1, #[], none⟩ := by
  unfold solveMixed
  rw [problem.validate_of_valid valid, sized]
  rfl

/-- A search that returns a tree has a valid problem and a mask of the right length. -/
theorem sized_of_solveMixed {mask : List Bool}
    (searched : settings.solveMixed problem mask = .ok tree) :
    problem.Valid ∧ ∃ integral : Vector Bool problem.numVars,
      vectorOf? problem.numVars mask = some integral ∧ integral.toList = mask := by
  unfold solveMixed at searched
  cases checked : problem.validate with
  | error fault =>
    rw [checked] at searched
    cases searched
  | ok valid =>
    by_cases length : mask.length = problem.numVars
    · exact ⟨valid.down, _, dif_pos length, rfl⟩
    · have wrong : vectorOf? problem.numVars mask = none := dif_neg length
      rw [checked] at searched
      simp only [bind, Except.bind, wrong] at searched
      cases searched

/-- A search that returns a tree has a mask of the right length and explores from the root. -/
theorem explore_of_solveMixed {mask : List Bool}
    (searched : settings.solveMixed problem mask = .ok tree) :
    ∃ integral : Vector Bool problem.numVars, integral.toList = mask ∧
      settings.explore problem integral settings.maxNodes [rootNode problem] ⟨1, #[], none⟩ =
        .ok tree := by
  obtain ⟨valid, integral, sized, masked⟩ := sized_of_solveMixed searched
  rw [solveMixed_eq_explore settings valid sized] at searched
  exact ⟨integral, masked, searched⟩

end BranchAndBound

end LinearProgramming
