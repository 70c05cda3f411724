/-
This file searches with a mask and lists of any length.

A visit solves the relaxation of a node on bare data, looks up in the mask which of its values must
be integral, and names the variable that it branches on. An optimal relaxation has one value for
each variable and the mask was measured before the search began, so a whole search finds every
entry that it looks up.
-/

import LinearProgramming.BranchAndBound
import LinearProgramming.Proofs.Bounds.Run

namespace LinearProgramming

variable {α : Type}

namespace Bare

/-! ### Records -/

/-- A solved node of a search. -/
structure Node (α : Type) where
  id : Nat
  parent : Option Nat
  depth : Nat
  constraints : List (Constraint α)
  added : Option (Constraint α)
  relaxation : Solution α
  pruneReason : Option (PruneReason α)
  isIntegral : Bool
  branching : Option (Nat × α)

/-- A search under way. -/
structure SearchState (α : Type) where
  nextId : Nat
  nodes : List (Node α)
  best : Option (Incumbent α)

/-- The result of a search. -/
structure SearchTree (α : Type) where
  nodes : List (Node α)
  best : Option (Incumbent α)
  limitReached : Bool

/-- What became of a node. -/
inductive Fate (α : Type) where
  | pruned (reason : PruneReason α)
  | integral
  | branched (variableIndex : Nat) (value : α)

variable [Scalar α]

namespace Search

open LinearProgramming.BranchAndBound (incumbentObjective cannotImprove isFractional child)

/-! ### Judging a relaxation -/

/-- The first variable that must be integral and has a fractional value, with that value. -/
def fractional? (tolerance : α) (mask : List Bool) (values : List α) :
    Option (Option (Nat × α)) := do
  match ← (List.range values.length).findM? fun j => do
    if ← mask[j]? then return isFractional tolerance (← values[j]?) else return false with
  | none => return none
  | some j => return some (j, ← values[j]?)

/-- What becomes of a node with a given relaxation. -/
def fateOf? (settings : BranchAndBound α) (sense : Sense) (mask : List Bool)
    (best : Option (Incumbent α)) (relaxation : Outcome α) : Option (Fate α) :=
  match relaxation with
  | .infeasible => some (.pruned .infeasible)
  | .unbounded _ => some (.pruned (.notSolved .unbounded))
  | .notConverged => some (.pruned (.notSolved .notConverged))
  | .optimal values objective =>
    let incumbent := incumbentObjective sense best
    if cannotImprove sense incumbent objective then some (.pruned (.bounded incumbent sense))
    else do
      match ← fractional? settings.integerTolerance mask values with
      | some (variableIndex, value) => return .branched variableIndex value
      | none => return .integral

/-- The incumbent after a node with a given fate and relaxation. -/
def updateBest (mask : List Bool) (id : Nat) (best : Option (Incumbent α)) (fate : Fate α)
    (relaxation : Outcome α) : Option (Incumbent α) :=
  match fate, relaxation with
  | .integral, .optimal values objective =>
    some ⟨id, objective, List.zipWith (fun value isIntegral =>
      if isIntegral then Scalar.round value else value) values mask⟩
  | _, _ => best

/-! ### Branching -/

/-- The children of a node with a given fate. Each reads off the variable it is about with a row
that has a one in its place. -/
def children? (problem : Problem α) (parent : PendingNode α) (nextId : Nat) :
    Fate α → Option (List (PendingNode α))
  | .branched variableIndex value => do
    let name ← problem.variableNames[variableIndex]?
    let row ← setAt? (List.replicate problem.numVars 0) variableIndex 1
    let below := Scalar.floor value
    let above := Scalar.ceil value
    return [child parent nextId ⟨name ++ " ≤ " ++ numberText below, row, .atMost, below⟩,
      child parent (nextId + 1) ⟨name ++ " ≥ " ++ numberText above, row, .atLeast, above⟩]
  | _ => some []

/-! ### The search -/

/-- A solved node with its relaxation and its fate. -/
def node (pending : PendingNode α) (relaxation : Solution α) (fate : Fate α) : Node α where
  id := pending.id
  parent := pending.parent
  depth := pending.depth
  constraints := pending.constraints
  added := pending.added
  relaxation := relaxation
  pruneReason := match fate with
    | .pruned reason => some reason
    | _ => none
  isIntegral := match fate with
    | .integral => true
    | _ => false
  branching := match fate with
    | .branched variableIndex value => some (variableIndex, value)
    | _ => none

/-- Solves one node. -/
def visit? (settings : BranchAndBound α) (problem : Problem α) (mask : List Bool)
    (pending : PendingNode α) (state : SearchState α) :
    Option (Except ProblemError (SearchState α × List (PendingNode α))) := do
  match ← solve? settings.solver (problem.withConstraints pending.constraints) with
  | .error fault => return .error fault
  | .ok relaxation =>
    let fate ← fateOf? settings problem.sense mask state.best relaxation.outcome
    let children ← children? problem pending state.nextId fate
    return .ok (⟨state.nextId + children.length, state.nodes ++ [node pending relaxation fate],
      updateBest mask pending.id state.best fate relaxation.outcome⟩, children)

/-- Visits the nodes of a stack and their descendants, at most a given number of them. -/
def explore? (settings : BranchAndBound α) (problem : Problem α) (mask : List Bool) :
    Nat → List (PendingNode α) → SearchState α → Option (Except ProblemError (SearchTree α))
  | _, [], state => some (.ok ⟨state.nodes, state.best, false⟩)
  | 0, _ :: _, state => some (.ok ⟨state.nodes, state.best, true⟩)
  | remaining + 1, pending :: rest, state => do
    match ← visit? settings problem mask pending state with
    | .error fault => return .error fault
    | .ok (state, children) =>
      explore? settings problem mask remaining (children ++ rest) state

end Search

/-- Searches with a mask that tells which variables must be integral. The problem is looked at only
when it has no fault and the mask has one entry for each variable. -/
def solveMixed? (settings : BranchAndBound α) (problem : Problem α) (mask : List Bool) :
    Option (Except ProblemError (SearchTree α)) :=
  match problem.validate with
  | .error fault => some (.error fault)
  | .ok _ =>
    if mask.length = problem.numVars then
      Search.explore? settings problem mask settings.maxNodes
        [LinearProgramming.BranchAndBound.rootNode problem] ⟨1, [], none⟩
    else some (.error (.integerMaskLength problem.numVars mask.length))

end Bare

/-! ### The parts of a search -/

/-- The fate of a node with its variable given by its number. -/
def NodeFate.bare {k : Nat} : NodeFate α k → Bare.Fate α
  | pruned reason => .pruned reason
  | integral => .integral
  | branched variableIndex value => .branched variableIndex value

variable [Scalar α]

/-- The parts of a solved node. -/
def SearchNode.bare {k : Nat} (node : SearchNode α k) : Bare.Node α where
  id := node.id
  parent := node.parent
  depth := node.depth
  constraints := node.constraints
  added := node.added
  relaxation := node.relaxation.bare
  pruneReason := node.pruneReason?
  isIntegral := node.isIntegral
  branching := node.branching?.map fun branch => (branch.1.val, branch.2)

/-- The parts of a search under way. -/
def SearchState.bare {k : Nat} (state : SearchState α k) : Bare.SearchState α :=
  ⟨state.nextId, state.nodes.toList.map SearchNode.bare, state.best⟩

/-- The parts of the result of a search. -/
def SearchTree.bare {k : Nat} (tree : SearchTree α k) : Bare.SearchTree α :=
  ⟨tree.nodes.toList.map SearchNode.bare, tree.best, tree.limitReached⟩

theorem Run.length_values {form : StandardForm α} {run : Run form} {values : List α}
    {objective : α} (optimal : run.outcome = .optimal values objective) :
    values.length = form.numVars := by
  unfold outcome at optimal
  split at optimal <;> cases optimal
  simp [Run.values]

/-- An optimal solution has one value for each variable. -/
theorem Solver.length_values {solver : Solver α} {problem : Problem α} {solution : Solution α}
    (solved : solver.solve problem = .ok solution) {values : List α} {objective : α}
    (optimal : solution.outcome = .optimal values objective) : values.length = problem.numVars := by
  unfold solve start at solved
  cases checked : problem.validate with
  | error fault =>
    rw [checked] at solved
    cases solved
  | ok evidence =>
    rw [checked] at solved
    cases solved
    exact Run.length_values optimal

namespace BranchAndBound

variable {k : Nat}

theorem fractionalVariable?_eq (tolerance : α) (integral : Vector Bool k) (values : List α)
    (length : values.length = k) :
    fractionalVariable? tolerance integral values =
      ((List.finRange k).find? fun j =>
        integral.get j && isFractional tolerance (values.get (j.cast length.symm))).map
          fun j => (j, values.get (j.cast length.symm)) := by
  have reads (j : Fin k) : values[j]? = some (values.get (j.cast length.symm)) :=
    List.getElem?_eq_getElem (j.isLt.trans_eq length.symm)
  rw [fractionalVariable?]
  induction List.finRange k with
  | nil => rfl
  | cons first rest inductionHypothesis =>
    rw [List.findSome?_cons, List.find?_cons, reads]
    dsimp only
    cases integral.get first && isFractional tolerance (values.get (first.cast length.symm)) with
    | true => rfl
    | false => exact inductionHypothesis

theorem fractional?_bare (tolerance : α) (integral : Vector Bool k) (values : List α)
    (length : values.length = k) :
    Bare.Search.fractional? tolerance integral.toList values =
      some ((fractionalVariable? tolerance integral values).map (Prod.map Fin.val id)) := by
  have reads (j : Fin k) : values[j.val]? = some (values.get (j.cast length.symm)) :=
    List.getElem?_eq_getElem (j.isLt.trans_eq length.symm)
  have found : (List.range k).findM? (fun j => do
      if ← integral.toList[j]? then return isFractional tolerance (← values[j]?)
      else return false) =
      some (((List.finRange k).find? fun j =>
        integral.get j && isFractional tolerance (values.get (j.cast length.symm))).map
          Fin.val) := by
    refine findM?_range fun j => ?_
    rw [getElem?_toList, reads]
    cases integral.get j <;> rfl
  rw [Bare.Search.fractional?, length, found,
    fractionalVariable?_eq tolerance integral values length]
  cases (List.finRange k).find? _ with
  | none => rfl
  | some j =>
    show (values[j.val]?).bind _ = _
    rw [reads]
    rfl

theorem fateOf?_bare (settings : BranchAndBound α) (sense : Sense) (integral : Vector Bool k)
    (best : Option (Incumbent α)) (relaxation : Outcome α)
    (length : ∀ values objective, relaxation = .optimal values objective → values.length = k) :
    Bare.Search.fateOf? settings sense integral.toList best relaxation =
      some (settings.fateOf sense integral best relaxation).bare := by
  cases relaxation with
  | infeasible | unbounded | notConverged => rfl
  | optimal values objective =>
    rw [Bare.Search.fateOf?, fateOf]
    split
    · rfl
    · rw [fractional?_bare _ _ _ (length values objective rfl)]
      cases fractionalVariable? settings.integerTolerance integral values <;> rfl

theorem updateBest_bare (integral : Vector Bool k) (id : Nat) (best : Option (Incumbent α))
    (fate : NodeFate α k) (relaxation : Outcome α) :
    Bare.Search.updateBest integral.toList id best fate.bare relaxation =
      updateBest integral id best fate relaxation := by
  cases fate <;> cases relaxation <;> rfl

theorem children?_bare (problem : Problem α) (parent : PendingNode α) (nextId : Nat)
    (fate : NodeFate α problem.numVars) :
    Bare.Search.children? problem parent nextId fate.bare =
      some (childrenOf problem parent nextId fate) := by
  cases fate with
  | pruned | integral => rfl
  | branched variableIndex value =>
    have name : problem.variableNames[variableIndex.val]? =
        some (problem.variableName variableIndex) := List.getElem?_eq_getElem variableIndex.isLt
    have row : setAt? (List.replicate problem.numVars 0) variableIndex (1 : α) =
        some (unitRow variableIndex) := by
      rw [← Vector.toList_replicate, setAt?_toList, toList_eq_ofFn, List.ofFn_eq_map]
      refine congrArg some (List.map_congr_left fun j _ => ?_)
      rw [get_replaceEntry]
      exact congrArg (ite _ _) (Vector.getElem_replicate j.isLt)
    simp only [NodeFate.bare, Bare.Search.children?, name, row, Option.bind_eq_bind,
      Option.bind_some]
    rfl

theorem visit?_bare (settings : BranchAndBound α) (problem : Problem α)
    (integral : Vector Bool problem.numVars) (pending : PendingNode α)
    (state : SearchState α problem.numVars) :
    Bare.Search.visit? settings problem integral.toList pending state.bare =
      some ((settings.visit problem integral pending state).map
        (Prod.map SearchState.bare id)) := by
  rw [Bare.Search.visit?, Solver.solve?_bare, visit]
  cases solved : settings.solver.solve (problem.withConstraints pending.constraints) with
  | error fault => rfl
  | ok relaxation =>
    have fate := settings.fateOf?_bare problem.sense integral state.best relaxation.outcome
      fun values objective optimal => Solver.length_values solved optimal
    show (Bare.Search.fateOf? settings problem.sense integral.toList state.best
      relaxation.outcome).bind _ = _
    rw [fate, Option.bind_some]
    show (Bare.Search.children? problem pending state.nextId _).bind _ = _
    rw [children?_bare, Option.bind_some, updateBest_bare]
    have node : Bare.Search.node pending relaxation.bare
        (settings.fateOf problem.sense integral state.best relaxation.outcome).bare =
        SearchNode.bare ⟨pending.id, pending.parent, pending.depth, pending.constraints,
          pending.added, relaxation,
          settings.fateOf problem.sense integral state.best relaxation.outcome⟩ := by
      cases settings.fateOf problem.sense integral state.best relaxation.outcome <;> rfl
    have listed (last : SearchNode α problem.numVars) :
        (state.nodes.push last).toList.map SearchNode.bare =
          state.nodes.toList.map SearchNode.bare ++ [last.bare] := by
      rw [Array.toList_push, List.map_append]
      rfl
    rw [node]
    exact congrArg (fun nodes => some (Except.ok (Bare.SearchState.mk _ nodes _, _)))
      (listed _).symm

theorem explore?_bare (settings : BranchAndBound α) (problem : Problem α)
    (integral : Vector Bool problem.numVars) (remaining : Nat) (stack : List (PendingNode α))
    (state : SearchState α problem.numVars) :
    Bare.Search.explore? settings problem integral.toList remaining stack state.bare =
      some ((settings.explore problem integral remaining stack state).map SearchTree.bare) := by
  -- a visit hands on another stack and another state
  induction remaining generalizing stack state with
  | zero => cases stack <;> rfl
  | succ remaining inductionHypothesis =>
    cases stack with
    | nil => rfl
    | cons pending rest =>
      rw [Bare.Search.explore?, visit?_bare, explore]
      cases settings.visit problem integral pending state with
      | error fault => rfl
      | ok made => exact inductionHypothesis _ _

/-- A search never looks outside of its lists, whatever mask it is given. -/
theorem solveMixed?_bare (settings : BranchAndBound α) (problem : Problem α) (mask : List Bool) :
    Bare.solveMixed? settings problem mask =
      some ((settings.solveMixed problem mask).map SearchTree.bare) := by
  rw [Bare.solveMixed?, solveMixed]
  cases problem.validate with
  | error fault => rfl
  | ok evidence =>
    show (if mask.length = problem.numVars then _ else _) = _
    by_cases measured : mask.length = problem.numVars
    · rw [if_pos measured]
      have vector : vectorOf? problem.numVars mask = some ⟨mask.toArray, by simpa using measured⟩ :=
        dif_pos measured
      rw [vector]
      exact settings.explore?_bare problem ⟨mask.toArray, _⟩ settings.maxNodes _ ⟨1, #[], none⟩
    · have vector : vectorOf? problem.numVars mask = none := dif_neg measured
      rw [if_neg measured, vector]
      rfl

end BranchAndBound

end LinearProgramming
