/-
This file proves that a search without tolerance finds a best integral point.

The invariant of the search is a coverage: as long as every node so far could be solved, each
integral point is still feasible for a node that waits to be visited, or is hardly better than the
incumbent. Pruning a node, branching and taking a new incumbent keep it, and when no node is left
the incumbent stands against every integral point.
-/

import Mathlib
import LinearProgramming.Proofs.Integrality
import LinearProgramming.Proofs.Optimality

namespace LinearProgramming

/-! ### Objectives up to a margin -/

/-- One objective is better than another in the author's sense by a margin at most. -/
def Sense.AtMostBetter (sense : Sense) (margin left right : Rat) : Prop :=
  match sense with
  | maximize => left ≤ right + margin
  | minimize => right - margin ≤ left

instance (sense : Sense) (margin left right : Rat) :
    Decidable (sense.AtMostBetter margin left right) :=
  match sense with
  | .maximize => inferInstanceAs (Decidable (left ≤ right + margin))
  | .minimize => inferInstanceAs (Decidable (right - margin ≤ left))

namespace Sense

variable {sense : Sense} {margin left right other : Rat}

theorem atMostBetter_iff :
    sense.AtMostBetter margin left right ↔ sense.orient left ≤ sense.orient right + margin := by
  cases sense with
  | maximize => exact Iff.rfl
  | minimize =>
    show right - margin ≤ left ↔ -left ≤ -right + margin
    constructor <;> intro <;> linarith

/-- An objective that is not better than a second one is compared as that one is. -/
theorem AtMostBetter.of_not_better (close : sense.AtMostBetter margin right other)
    (notBetter : ¬ sense.Better left right) : sense.AtMostBetter margin left other := by
  rw [atMostBetter_iff] at close ⊢
  exact (not_better_iff.1 notBetter).trans close

/-- An incumbent may be replaced by one that is not worse. -/
theorem AtMostBetter.replace (close : sense.AtMostBetter margin left right)
    (notBetter : ¬ sense.Better right other) : sense.AtMostBetter margin left other := by
  rw [atMostBetter_iff] at close ⊢
  exact close.trans (add_le_add_left (not_better_iff.1 notBetter) margin)

theorem not_better_self (sense : Sense) (number : Rat) : ¬ sense.Better number number :=
  not_better_iff.2 le_rfl

theorem atMostBetter_of_not_better (nonneg : 0 ≤ margin) (notBetter : ¬ sense.Better left right) :
    sense.AtMostBetter margin left right := by
  rw [atMostBetter_iff]
  exact (not_better_iff.1 notBetter).trans (le_add_of_nonneg_right nonneg)

theorem not_better_of_not_atMostBetter (nonneg : 0 ≤ margin)
    (improves : ¬ sense.AtMostBetter margin left right) : ¬ sense.Better right left := by
  rw [atMostBetter_iff] at improves
  rw [not_better_iff]
  exact (le_add_of_nonneg_right nonneg).trans (not_le.1 improves).le

end Sense

/-- A feasible point with whole numbers on the mask. -/
structure Problem.Admissible (problem : Problem Rat) (mask : List Bool) (point : List Rat) :
    Prop where
  feasible : problem.Feasible point
  whole : IntegralOn mask point

/-- The relaxation of the node was found to be infeasible or has an optimal point. -/
def SearchNode.isSettled {k : Nat} (node : SearchNode Rat k) : Bool :=
  match node.pruneReason? with
  | some (.notSolved _) => false
  | _ => true

/-! ### What becomes of a node -/

namespace BranchAndBound

/-- A node is cut off exactly when there is an incumbent that it betters by the default tolerance
at most. -/
theorem cannotImprove_iff {sense : Sense} {best : Option (Incumbent Rat)} {objective : Rat} :
    cannotImprove sense (incumbentObjective sense best) objective = true ↔
      ∃ incumbent, best = some incumbent ∧
        sense.AtMostBetter Scalar.epsilon objective incumbent.objective := by
  cases best with
  | none =>
    refine ⟨fun cut => ?_, fun ⟨incumbent, held, _⟩ => nomatch held⟩
    cases sense <;> cases cut
  | some incumbent =>
    constructor
    · intro cut
      refine ⟨incumbent, rfl, ?_⟩
      cases sense <;> exact of_decide_eq_true cut
    · rintro ⟨other, held, close⟩
      cases held
      cases sense <;> exact decide_eq_true close

/-- All that can become of a node. -/
inductive FateOf {k : Nat} (tolerance : Rat) (sense : Sense) (integral : Vector Bool k)
    (best : Option (Incumbent Rat)) : Outcome Rat → NodeFate Rat k → Prop
  | infeasible : FateOf tolerance sense integral best .infeasible (.pruned .infeasible)
  | notSolved (outcome : Outcome Rat) (status : Status) :
    FateOf tolerance sense integral best outcome (.pruned (.notSolved status))
  | bounded (values : List Rat) (objective : Rat) (bound : Extended Rat)
    (incumbent : Incumbent Rat) (held : best = some incumbent)
    (close : sense.AtMostBetter Scalar.epsilon objective incumbent.objective) :
    FateOf tolerance sense integral best (.optimal values objective)
      (.pruned (.bounded bound sense))
  | branched (values : List Rat) (objective : Rat) (j : Fin k) (value : Rat)
    (found : fractionalVariable? tolerance integral values = some (j, value)) :
    FateOf tolerance sense integral best (.optimal values objective) (.branched j value)
  | integral (values : List Rat) (objective : Rat)
    (found : fractionalVariable? tolerance integral values = none)
    (improves : ∀ incumbent, best = some incumbent →
      ¬ sense.AtMostBetter Scalar.epsilon objective incumbent.objective) :
    FateOf tolerance sense integral best (.optimal values objective) .integral

theorem fateOf_cases {k : Nat} (settings : BranchAndBound Rat) (sense : Sense)
    (integral : Vector Bool k) (best : Option (Incumbent Rat)) (outcome : Outcome Rat) :
    FateOf settings.integerTolerance sense integral best outcome
      (settings.fateOf sense integral best outcome) := by
  cases outcome with
  | infeasible => exact .infeasible
  | unbounded direction => exact .notSolved _ _
  | notConverged => exact .notSolved _ _
  | optimal values objective =>
    unfold fateOf
    dsimp only
    split
    · rename_i cut
      obtain ⟨incumbent, held, close⟩ := cannotImprove_iff.1 cut
      exact .bounded values objective _ incumbent held close
    · rename_i improves
      split
      · rename_i j value found
        exact .branched values objective j value found
      · rename_i found
        exact .integral values objective found fun incumbent held close =>
          improves (cannotImprove_iff.2 ⟨incumbent, held, close⟩)

/-- What a visit leaves, when the relaxation of the node is known. -/
theorem visit_of_solve (settings : BranchAndBound Rat) {problem : Problem Rat}
    (integral : Vector Bool problem.numVars) {pending : PendingNode Rat}
    (state : SearchState Rat problem.numVars) {relaxation : Solution Rat}
    (solved : settings.solver.solve (problem.withConstraints pending.constraints) =
      .ok relaxation) {fate : NodeFate Rat problem.numVars}
    (judged : settings.fateOf problem.sense integral state.best relaxation.outcome = fate) :
    ∃ node : SearchNode Rat problem.numVars,
      node.fate = fate ∧ node.id = pending.id ∧ node.relaxation = relaxation ∧
      settings.visit problem integral pending state =
        .ok (⟨state.nextId + (childrenOf problem pending state.nextId fate).length,
            state.nodes.push node, updateBest integral pending.id state.best fate
              relaxation.outcome⟩,
          childrenOf problem pending state.nextId fate) := by
  subst judged
  unfold visit
  rw [solved]
  exact ⟨_, rfl, rfl, rfl, rfl⟩

/-- Whatever each visit keeps, a search keeps: it returns a tree, with what holds of the nodes
that are left, and unless the limit was reached no node is left. -/
theorem explore_induction (settings : BranchAndBound Rat) {problem : Problem Rat}
    {integral : Vector Bool problem.numVars}
    (holds : List (PendingNode Rat) → SearchState Rat problem.numVars → Prop)
    (visit : ∀ pending rest state, holds (pending :: rest) state → ∃ later children,
      settings.visit problem integral pending state = .ok (later, children) ∧
        holds (children ++ rest) later)
    (remaining : Nat) {stack : List (PendingNode Rat)}
    {state : SearchState Rat problem.numVars} (begun : holds stack state) :
    ∃ tree, settings.explore problem integral remaining stack state = .ok tree ∧
      ∃ left nextId, holds left ⟨nextId, tree.nodes, tree.best⟩ ∧
        (tree.limitReached = false → left = []) := by
  induction remaining generalizing stack state with
  | zero =>
    cases stack with
    | nil => exact ⟨_, rfl, [], state.nextId, begun, fun _ => rfl⟩
    | cons pending rest =>
      exact ⟨_, rfl, pending :: rest, state.nextId, begun, fun finished => nomatch finished⟩
  | succ remaining inductionHypothesis =>
    cases stack with
    | nil => exact ⟨_, rfl, [], state.nextId, begun, fun _ => rfl⟩
    | cons pending rest =>
      obtain ⟨later, children, visited, next⟩ := visit pending rest state begun
      rw [BranchAndBound.explore, visited]
      exact inductionHypothesis next

end BranchAndBound

/-! ### Waiting nodes -/

theorem Constraint.isFinite_exact (constraint : Constraint Rat) : constraint.isFinite = true :=
  (Bool.and_eq_true _ _).mpr ⟨rfl, List.all_eq_true.2 fun _ _ => rfl⟩

/-- A waiting node keeps the constraints of the problem and adds some that fit it. -/
structure PendingNode.Refines (pending : PendingNode Rat) (problem : Problem Rat) : Prop where
  keeps : ∀ constraint ∈ problem.constraints, constraint ∈ pending.constraints
  fits : ∀ constraint ∈ pending.constraints, constraint.Fits problem.numVars

/-- The relaxation of a waiting node. -/
def PendingNode.relaxed (pending : PendingNode Rat) (problem : Problem Rat) : Problem Rat :=
  problem.withConstraints pending.constraints

namespace PendingNode.Refines

variable {pending : PendingNode Rat} {problem : Problem Rat} (refines : pending.Refines problem)

include refines

theorem valid (valid : problem.Valid) : (pending.relaxed problem).Valid where
  variableNames_ne_nil := valid.variableNames_ne_nil
  objective_length := valid.objective_length
  objective_finite := valid.objective_finite
  constraints_fit := refines.fits

theorem feasible {point : List Rat} (feasible : (pending.relaxed problem).Feasible point) :
    problem.Feasible point where
  length := feasible.length
  nonneg := feasible.nonneg
  holds constraint member := feasible.holds constraint (refines.keeps constraint member)

theorem child {bound : Constraint Rat} (fits : bound.Fits problem.numVars) (id : Nat) :
    (BranchAndBound.child pending id bound).Refines problem where
  keeps constraint member := List.mem_append_left _ (refines.keeps constraint member)
  fits constraint member := by
    rcases List.mem_append.1 member with kept | added
    · exact refines.fits constraint kept
    · rw [List.mem_singleton.1 added]
      exact fits

theorem childrenOf_branched (j : Fin problem.numVars) (value : Rat) {nextId : Nat} :
    ∀ child ∈ BranchAndBound.childrenOf problem pending nextId (.branched j value),
      child.Refines problem := by
  have fits : ∀ name relation (rhs : Rat),
      (⟨name, BranchAndBound.unitRow j, relation, rhs⟩ : Constraint Rat).Fits problem.numVars :=
    fun _ _ _ => ⟨by simp [BranchAndBound.unitRow], Constraint.isFinite_exact _⟩
  intro child member
  rcases List.mem_pair.1 member with rfl | rfl
  · exact refines.child (fits _ _ _) _
  · exact refines.child (fits _ _ _) _

/-- Whatever becomes of a node, its children keep the constraints. -/
theorem childrenOf (fate : NodeFate Rat problem.numVars) {nextId : Nat} :
    ∀ child ∈ BranchAndBound.childrenOf problem pending nextId fate, child.Refines problem := by
  cases fate with
  | pruned reason => exact fun child member => nomatch member
  | integral => exact fun child member => nomatch member
  | branched j value => exact refines.childrenOf_branched j value

end PendingNode.Refines

theorem BranchAndBound.feasible_child {pending : PendingNode Rat} {problem : Problem Rat}
    {point : List Rat} (feasible : (pending.relaxed problem).Feasible point)
    {bound : Constraint Rat} (holds : bound.Holds point) (id : Nat) :
    ((child pending id bound).relaxed problem).Feasible point where
  length := feasible.length
  nonneg := feasible.nonneg
  holds constraint member := by
    rcases List.mem_append.1 member with kept | added
    · exact feasible.holds constraint kept
    · rw [List.mem_singleton.1 added]
      exact holds

/-! ### Coverage -/

variable {problem : Problem Rat} {pending : PendingNode Rat} {rest : List (PendingNode Rat)}
  {integral : Vector Bool problem.numVars}

/-- A point is not lost: it is feasible for a node that waits, or hardly better than the
incumbent. -/
def Covered (problem : Problem Rat) (stack : List (PendingNode Rat))
    (best : Option (Incumbent Rat)) (point : List Rat) : Prop :=
  (∃ pending ∈ stack, (pending.relaxed problem).Feasible point) ∨
    ∃ incumbent, best = some incumbent ∧
      problem.sense.AtMostBetter Scalar.epsilon (problem.evaluate point) incumbent.objective

/-- A covered point stays covered when the incumbent gets no worse and the points of the visited
node are covered anew. -/
theorem Covered.visit {best later : Option (Incumbent Rat)} {children : List (PendingNode Rat)}
    {point : List Rat} (covered : Covered problem (pending :: rest) best point)
    (here : (pending.relaxed problem).Feasible point →
      Covered problem (children ++ rest) later point)
    (kept : ∀ incumbent, best = some incumbent → ∃ other, later = some other ∧
      ¬ problem.sense.Better incumbent.objective other.objective) :
    Covered problem (children ++ rest) later point := by
  rcases covered with ⟨waiting, member, feasible⟩ | ⟨incumbent, held, close⟩
  · rcases List.mem_cons.1 member with rfl | later
    · exact here feasible
    · exact Or.inl ⟨waiting, List.mem_append_right _ later, feasible⟩
  · obtain ⟨other, holds, notBetter⟩ := kept incumbent held
    exact Or.inr ⟨other, holds, close.replace notBetter⟩

/-- When no node waits, a covered point is hardly better than the incumbent. -/
theorem Covered.of_finished {best : Option (Incumbent Rat)} {point : List Rat}
    (covered : Covered problem [] best point) :
    ∃ incumbent, best = some incumbent ∧
      problem.sense.AtMostBetter Scalar.epsilon (problem.evaluate point) incumbent.objective := by
  rcases covered with ⟨_, member, _⟩ | close
  · cases member
  · exact close

/-- The invariant of a search. -/
structure SearchInvariant (problem : Problem Rat) (integral : Vector Bool problem.numVars)
    (stack : List (PendingNode Rat)) (state : SearchState Rat problem.numVars) : Prop where
  refines : ∀ pending ∈ stack, pending.Refines problem
  incumbent : ∀ incumbent, state.best = some incumbent →
    problem.Admissible integral.toList incumbent.values ∧
      incumbent.objective = problem.evaluate incumbent.values
  covered : (∀ node ∈ state.nodes, node.isSettled = true) →
    ∀ point, problem.Admissible integral.toList point → Covered problem stack state.best point

namespace SearchInvariant

variable {settings : BranchAndBound Rat} {state : SearchState Rat problem.numVars}

/-- The search begins with every feasible point at the root. -/
theorem start (valid : problem.Valid) (integral : Vector Bool problem.numVars) :
    SearchInvariant problem integral [BranchAndBound.rootNode problem] ⟨1, #[], none⟩ where
  refines pending member := by
    rw [List.mem_singleton.1 member]
    exact ⟨fun _ kept => kept, valid.constraints_fit⟩
  incumbent incumbent held := nomatch held
  covered _ point admissible :=
    Or.inl ⟨_, List.mem_singleton.2 rfl, admissible.feasible⟩

/-- What a visit has to show for the invariant to hold after it. -/
theorem next (invariant : SearchInvariant problem integral (pending :: rest) state)
    {node : SearchNode Rat problem.numVars} {nextId : Nat} {later : Option (Incumbent Rat)}
    {children : List (PendingNode Rat)} (refine : ∀ child ∈ children, child.Refines problem)
    (genuine : ∀ incumbent, later = some incumbent →
      problem.Admissible integral.toList incumbent.values ∧
        incumbent.objective = problem.evaluate incumbent.values)
    (here : node.isSettled = true → ∀ point, problem.Admissible integral.toList point →
      (pending.relaxed problem).Feasible point → Covered problem (children ++ rest) later point)
    (kept : ∀ incumbent, state.best = some incumbent → ∃ other, later = some other ∧
      ¬ problem.sense.Better incumbent.objective other.objective) :
    SearchInvariant problem integral (children ++ rest)
      ⟨nextId, state.nodes.push node, later⟩ where
  refines waiting member := by
    rcases List.mem_append.1 member with child | older
    · exact refine waiting child
    · exact invariant.refines waiting (List.mem_cons_of_mem _ older)
  incumbent := genuine
  covered settled point admissible := by
    have earlier : ∀ node ∈ state.nodes, node.isSettled = true := fun node member =>
      settled node (Array.mem_push.2 (Or.inl member))
    have last := settled node (Array.mem_push.2 (Or.inr rfl))
    exact (invariant.covered earlier point admissible).visit (here last point admissible) kept

/-- A visit that leaves the incumbent as it is. -/
theorem next_of_kept (invariant : SearchInvariant problem integral (pending :: rest) state)
    {node : SearchNode Rat problem.numVars} {nextId : Nat} {children : List (PendingNode Rat)}
    (refine : ∀ child ∈ children, child.Refines problem)
    (here : node.isSettled = true → ∀ point, problem.Admissible integral.toList point →
      (pending.relaxed problem).Feasible point →
        Covered problem (children ++ rest) state.best point) :
    SearchInvariant problem integral (children ++ rest)
      ⟨nextId, state.nodes.push node, state.best⟩ :=
  invariant.next refine invariant.incumbent here fun incumbent held =>
    ⟨incumbent, held, Sense.not_better_self _ _⟩

/-- Branching: the value of an integral point at the variable is whole, so one of the two children
keeps the point. -/
theorem next_of_branched (invariant : SearchInvariant problem integral (pending :: rest) state)
    {j : Fin problem.numVars} (masked : integral.get j = true) (value : Rat)
    {node : SearchNode Rat problem.numVars} {firstId nextId : Nat} :
    SearchInvariant problem integral
      (BranchAndBound.childrenOf problem pending firstId (.branched j value) ++ rest)
      ⟨nextId, state.nodes.push node, state.best⟩ := by
  have refines := invariant.refines pending List.mem_cons_self
  refine invariant.next_of_kept (refines.childrenOf_branched j value) ?_
  intro _ point admissible feasible
  rcases BranchAndBound.holds_bound feasible.length admissible.whole masked value with
    below | above
  · exact Or.inl ⟨_, List.mem_append_left _ List.mem_cons_self,
      BranchAndBound.feasible_child feasible below _⟩
  · exact Or.inl ⟨_, List.mem_append_left _ (List.mem_cons_of_mem _ List.mem_cons_self),
      BranchAndBound.feasible_child feasible above _⟩

/-- A new incumbent: it is the best point of its node, and better than the old one by more than the
default tolerance. -/
theorem next_of_integral (invariant : SearchInvariant problem integral (pending :: rest) state)
    {values : List Rat} (best : (pending.relaxed problem).IsBest values)
    (whole : IntegralOn integral.toList values)
    (improves : ∀ incumbent, state.best = some incumbent →
      ¬ problem.sense.AtMostBetter Scalar.epsilon (problem.evaluate values) incumbent.objective)
    {node : SearchNode Rat problem.numVars} {nextId : Nat} :
    SearchInvariant problem integral rest
      ⟨nextId, state.nodes.push node, some ⟨pending.id, problem.evaluate values,
        BranchAndBound.roundedValues integral values⟩⟩ := by
  have refines := invariant.refines pending List.mem_cons_self
  have rounded := BranchAndBound.roundedValues_eq whole best.feasible.length
  have noChildren : ∀ child ∈ ([] : List (PendingNode Rat)), child.Refines problem := nofun
  refine invariant.next noChildren ?_ ?_ ?_
  · intro incumbent held
    cases held
    rw [rounded]
    exact ⟨⟨refines.feasible best.feasible, whole⟩, rfl⟩
  · intro _ point _ feasible
    exact Or.inr ⟨_, rfl,
      Sense.atMostBetter_of_not_better epsilon_nonneg (best.best point feasible)⟩
  · intro incumbent held
    exact ⟨_, rfl, Sense.not_better_of_not_atMostBetter epsilon_nonneg (improves incumbent held)⟩

/-- One visit keeps the invariant. -/
theorem visit (exactSolver : settings.solver.tolerance = 0)
    (exactMask : settings.integerTolerance = 0) (valid : problem.Valid)
    (invariant : SearchInvariant problem integral (pending :: rest) state) :
    ∃ later children, settings.visit problem integral pending state = .ok (later, children) ∧
      SearchInvariant problem integral (children ++ rest) later := by
  have refines := invariant.refines pending List.mem_cons_self
  obtain ⟨relaxation, solved, optimal, infeasible⟩ :=
    settings.solver.outcome_sound exactSolver (refines.valid valid)
  have judged := BranchAndBound.fateOf_cases settings problem.sense integral state.best
    relaxation.outcome
  rw [exactMask] at judged
  obtain ⟨node, nodeFate, _, _, visited⟩ :=
    BranchAndBound.visit_of_solve settings integral state solved rfl
  refine ⟨_, _, visited, ?_⟩
  generalize settings.fateOf problem.sense integral state.best relaxation.outcome = fate
    at judged nodeFate
  generalize relaxation.outcome = outcome at judged optimal infeasible
  cases judged with
  | infeasible =>
    refine invariant.next_of_kept (fun child member => nomatch member) ?_
    intro _ point _ feasible
    exact absurd feasible (infeasible rfl point)
  | notSolved outcome status =>
    refine invariant.next_of_kept (fun child member => nomatch member) ?_
    intro settled
    unfold SearchNode.isSettled SearchNode.pruneReason? at settled
    rw [nodeFate] at settled
    cases settled
  | bounded values objective bound incumbent held close =>
    obtain ⟨best, rfl⟩ := optimal values objective rfl
    refine invariant.next_of_kept (fun child member => nomatch member) ?_
    intro _ point _ feasible
    exact Or.inr ⟨incumbent, held, close.of_not_better (best.best point feasible)⟩
  | branched values objective j value found =>
    have masked := (BranchAndBound.fractional_of_fractionalVariable?_eq_some found).2.1
    exact invariant.next_of_branched masked value
  | integral values objective found improves =>
    obtain ⟨best, rfl⟩ := optimal values objective rfl
    have whole := BranchAndBound.integralOn_of_fractionalVariable?_eq_none found
    exact invariant.next_of_integral best whole improves

/-- A search that keeps its invariant returns a tree, and unless the limit was reached no node is
left over. -/
theorem explore (exactSolver : settings.solver.tolerance = 0)
    (exactMask : settings.integerTolerance = 0) (valid : problem.Valid) (remaining : Nat)
    {stack : List (PendingNode Rat)} (invariant : SearchInvariant problem integral stack state) :
    ∃ tree, settings.explore problem integral remaining stack state = .ok tree ∧
      ∃ left nextId, SearchInvariant problem integral left ⟨nextId, tree.nodes, tree.best⟩ ∧
        (tree.limitReached = false → left = []) :=
  settings.explore_induction (SearchInvariant problem integral)
    (fun _ _ _ invariant => invariant.visit exactSolver exactMask valid) remaining invariant

end SearchInvariant

/-! ### The result of a search -/

theorem vectorOf?_of_length {β : Type} {count : Nat} {list : List β}
    (length : list.length = count) :
    ∃ vector, vectorOf? count list = some vector ∧ vector.toList = list := by
  unfold vectorOf?
  exact ⟨_, dif_pos length, rfl⟩

/-- A search is optimal. Without tolerance and for a mask of the right length every search of a
valid problem returns a tree. If no node was left over or left unsolved, then without an incumbent
no point is admissible, and with one the incumbent is admissible, has its objective, and no
admissible point is better by more than the default tolerance. -/
theorem BranchAndBound.solveMixed_optimal (settings : BranchAndBound Rat)
    (exactSolver : settings.solver.tolerance = 0) (exactMask : settings.integerTolerance = 0)
    (problem : Problem Rat) (valid : problem.Valid) (mask : List Bool)
    (length : mask.length = problem.numVars) :
    ∃ tree, settings.solveMixed problem mask = .ok tree ∧
      (tree.limitReached = false → (∀ node ∈ tree.nodes, node.isSettled = true) →
        (tree.best = none → ∀ point, ¬ problem.Admissible mask point) ∧
        ∀ incumbent, tree.best = some incumbent →
          problem.Admissible mask incumbent.values ∧
          incumbent.objective = problem.evaluate incumbent.values ∧
          ∀ point, problem.Admissible mask point →
            problem.sense.AtMostBetter Scalar.epsilon (problem.evaluate point)
              incumbent.objective) := by
  obtain ⟨integral, masked, same⟩ := vectorOf?_of_length length
  obtain ⟨tree, explored, left, nextId, invariant, finished⟩ :=
    (SearchInvariant.start valid integral).explore exactSolver exactMask valid settings.maxNodes
  refine ⟨tree, ?_, fun noLimit settled => ?_⟩
  · unfold solveMixed
    rw [problem.validate_of_valid valid, masked]
    exact explored
  · subst same
    rw [finished noLimit] at invariant
    have compared := fun point admissible =>
      (invariant.covered settled point admissible).of_finished
    refine ⟨fun noBest point admissible => ?_, fun incumbent held => ?_⟩
    · obtain ⟨incumbent, held, _⟩ := compared point admissible
      cases noBest.symm.trans held
    · obtain ⟨admissible, objective⟩ := invariant.incumbent incumbent held
      refine ⟨admissible, objective, fun point admissible => ?_⟩
      obtain ⟨other, alsoHeld, close⟩ := compared point admissible
      cases held.symm.trans alsoHeld
      exact close

/-- A problem whose relaxation is best at a fractional point. -/
def knapsackProblem : Problem Rat :=
  (((Problem.withVariables 2).setObjective [5, 4] .maximize).constrain [6, 4] .atMost 24).constrain
    [1, 2] .atMost 6

theorem knapsackProblem_valid : knapsackProblem.Valid :=
  Problem.fault?_eq_none_iff.1 (by decide +kernel)

/-- The statement at a search that branches and ends with an incumbent. -/
theorem BranchAndBound.solveMixed_optimal_knapsackProblem :
    knapsackProblem.Valid ∧ [true, true].length = knapsackProblem.numVars ∧
      ∃ tree incumbent,
        ({ solver := { tolerance := 0 }, integerTolerance := 0 } : BranchAndBound Rat).solveMixed
            knapsackProblem [true, true] = .ok tree ∧
          tree.limitReached = false ∧ (∀ node ∈ tree.nodes, node.isSettled = true) ∧
          tree.best = some incumbent ∧
          knapsackProblem.Admissible [true, true] incumbent.values ∧
          ∀ point, knapsackProblem.Admissible [true, true] point →
            knapsackProblem.sense.AtMostBetter Scalar.epsilon (knapsackProblem.evaluate point)
              incumbent.objective := by
  refine ⟨knapsackProblem_valid, rfl, ?_⟩
  obtain ⟨tree, searched, optimal⟩ := solveMixed_optimal
    { solver := { tolerance := 0 }, integerTolerance := 0 } rfl rfl knapsackProblem
    knapsackProblem_valid [true, true] rfl
  have ran : (({ solver := { tolerance := 0 }, integerTolerance := 0 } :
      BranchAndBound Rat).solveMixed knapsackProblem [true, true]).map (fun tree =>
        (tree.limitReached, tree.nodes.toList.all SearchNode.isSettled, tree.best.isSome)) =
      .ok (false, true, true) := by decide +kernel
  rw [searched] at ran
  obtain ⟨finished, settled, found⟩ :
      tree.limitReached = false ∧ tree.nodes.toList.all SearchNode.isSettled = true ∧
        tree.best.isSome = true := by
    simpa using Except.ok.inj ran
  obtain ⟨incumbent, held⟩ := Option.isSome_iff_exists.1 found
  have everySettled : ∀ node ∈ tree.nodes, node.isSettled = true := fun node member =>
    List.all_eq_true.1 settled node (Array.mem_toList_iff.2 member)
  obtain ⟨admissible, _, best⟩ := (optimal finished everySettled).2 incumbent held
  exact ⟨tree, incumbent, searched, finished, everySettled, held, admissible, best⟩

end LinearProgramming
