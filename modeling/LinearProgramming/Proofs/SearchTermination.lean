/-
This file proves that a search over bounded integral variables ends.

The bounds on a path of the tree leave each integral variable a box of whole numbers. A node
branches on a value inside the box that is not whole, so the boxes of both children are narrower
by one at least and still hold a whole number. Depth and width together never grow, which bounds
the depth by the width at the root. A waiting node of some depth can have no more descendants than
a full binary tree below it, and a visit spends one of them, which bounds the number of nodes.
-/

import Mathlib
import LinearProgramming.Proofs.SearchCoverage
import LinearProgramming.Proofs.SearchRun

namespace LinearProgramming

/-! ### Boxes of whole numbers -/

/-- An interval of whole numbers for each of `k` variables. -/
structure Box (k : Nat) where
  low : Fin k → Int
  high : Fin k → Int

namespace Box

variable {k : Nat} {integral : Vector Bool k} {box : Box k} {j : Fin k} {low high : Int}

/-- The box with another interval for one variable. -/
def narrow (box : Box k) (j : Fin k) (low high : Int) : Box k where
  low i := if i = j then low else box.low i
  high i := if i = j then high else box.high i

/-- The widths of the intervals of the integral variables, added up. -/
def width (integral : Vector Bool k) (box : Box k) : Int :=
  ∑ j, if integral.get j then box.high j - box.low j else 0

/-- Every integral variable has a whole number left. -/
def Nonempty (integral : Vector Bool k) (box : Box k) : Prop :=
  ∀ j, integral.get j = true → box.low j ≤ box.high j

/-- The integral entries of a point are in the box. -/
def Contains (integral : Vector Bool k) (box : Box k) (point : List Rat) : Prop :=
  ∀ j : Fin k, integral.get j = true → ∀ level, point[j.val]? = some level →
    (box.low j : Rat) ≤ level ∧ level ≤ box.high j

theorem Nonempty.width_nonneg (nonempty : box.Nonempty integral) : 0 ≤ box.width integral := by
  refine Finset.sum_nonneg fun j _ => ?_
  split
  · rename_i masked
    exact sub_nonneg.2 (nonempty j masked)
  · exact le_rfl

theorem Nonempty.narrow (nonempty : box.Nonempty integral) (ordered : low ≤ high) :
    (box.narrow j low high).Nonempty integral := by
  intro i masked
  unfold Box.narrow
  dsimp only
  split
  · exact ordered
  · exact nonempty i masked

/-- A narrower interval for an integral variable takes that much from the width. -/
theorem width_narrow (masked : integral.get j = true) :
    (box.narrow j low high).width integral =
      box.width integral + ((high - low) - (box.high j - box.low j)) := by
  have others : ∀ i ∈ Finset.univ.erase j,
      (if integral.get i then (box.narrow j low high).high i - (box.narrow j low high).low i
        else 0) = if integral.get i then box.high i - box.low i else 0 := by
    intro i member
    simp only [narrow, if_neg (Finset.ne_of_mem_erase member)]
  unfold width
  rw [← Finset.add_sum_erase _ _ (Finset.mem_univ j),
    ← Finset.add_sum_erase _ _ (Finset.mem_univ j), if_pos masked, if_pos masked,
    Finset.sum_congr rfl others]
  simp only [narrow, if_true]
  ring

theorem Contains.narrow {point : List Rat} (contains : box.Contains integral point)
    (inside : ∀ level, point[j.val]? = some level → (low : Rat) ≤ level ∧ level ≤ high) :
    (box.narrow j low high).Contains integral point := by
  intro i masked level present
  unfold Box.narrow
  dsimp only
  split
  · rename_i same
    exact inside level (same ▸ present)
  · exact contains i masked level present

end Box

namespace BranchAndBound

/-- A value that counts as fractional is not whole, so an interval around it has a whole number
below the value and one above it. -/
theorem between_of_isFractional {tolerance value : Rat} (nonneg : 0 ≤ tolerance)
    (fractional : isFractional tolerance value = true) {low high : Int}
    (below : (low : Rat) ≤ value) (above : value ≤ high) :
    low ≤ value.floor ∧ value.floor < value.ceil ∧ value.ceil ≤ high := by
  have inside : tolerance < value - value.floor :=
    of_decide_eq_true ((Bool.and_eq_true _ _).mp fractional).1
  have floor : (value.floor : Rat) < value := by linarith
  refine ⟨Rat.le_floor_iff.2 below, ?_, Rat.ceil_le_iff.2 above⟩
  exact Rat.intCast_lt_intCast.1 (floor.trans_le Rat.le_ceil)

/-- A feasible point of a child is one of its parent that keeps the bound. -/
theorem feasible_of_child {pending : PendingNode Rat} {problem : Problem Rat}
    {bound : Constraint Rat} {id : Nat} {point : List Rat}
    (feasible : ((child pending id bound).relaxed problem).Feasible point) :
    (pending.relaxed problem).Feasible point ∧ bound.Holds point := by
  refine ⟨⟨feasible.length, feasible.nonneg, fun constraint member => ?_⟩, ?_⟩
  · exact feasible.holds constraint (List.mem_append_left _ member)
  · exact feasible.holds bound (List.mem_append_right _ (List.mem_singleton.2 rfl))

end BranchAndBound

theorem Problem.levelAt_of_getElem? (problem : Problem Rat) {point : List Rat}
    (length : point.length = problem.numVars) {j : Fin problem.numVars} {level : Rat}
    (listed : point[j.val]? = some level) : levelAt length j = level := by
  obtain ⟨inRange, found⟩ := List.getElem?_eq_some_iff.1 listed
  exact found

/-! ### Nodes in a box -/

variable {problem : Problem Rat} {integral : Vector Bool problem.numVars} {total : Nat}
  {pending : PendingNode Rat}

/-- The feasible points of a waiting node are in a box that holds whole numbers and is no wider
than the depth of the node allows. -/
structure PendingNode.Confined (pending : PendingNode Rat) (problem : Problem Rat)
    (integral : Vector Bool problem.numVars) (total : Nat) (box : Box problem.numVars) : Prop where
  nonempty : box.Nonempty integral
  contains : ∀ point, (pending.relaxed problem).Feasible point → box.Contains integral point
  depth_add_width : pending.depth + box.width integral ≤ total

namespace PendingNode.Confined

variable {box : Box problem.numVars}

theorem depth_le (confined : pending.Confined problem integral total box) :
    pending.depth ≤ total := by
  have width := confined.nonempty.width_nonneg
  have room := confined.depth_add_width
  omega

/-- A child whose bound keeps the points in a narrower interval is confined to it. -/
theorem child (confined : pending.Confined problem integral total box) {j : Fin problem.numVars}
    (masked : integral.get j = true) {low high : Int} (ordered : low ≤ high)
    (narrower : high - low < box.high j - box.low j) {bound : Constraint Rat} (id : Nat)
    (inside : ∀ point, (pending.relaxed problem).Feasible point → bound.Holds point →
      ∀ level, point[j.val]? = some level → (low : Rat) ≤ level ∧ level ≤ high) :
    (BranchAndBound.child pending id bound).Confined problem integral total
      (box.narrow j low high) where
  nonempty := confined.nonempty.narrow ordered
  contains point feasible := by
    obtain ⟨parent, holds⟩ := BranchAndBound.feasible_of_child feasible
    exact (confined.contains point parent).narrow (inside point parent holds)
  depth_add_width := by
    have room := confined.depth_add_width
    rw [Box.width_narrow masked]
    unfold BranchAndBound.child
    push_cast
    omega

/-- Branching on a value of a feasible point confines both children. -/
theorem childrenOf_branched (confined : pending.Confined problem integral total box)
    {j : Fin problem.numVars} (masked : integral.get j = true) {tolerance value : Rat}
    (nonneg : 0 ≤ tolerance)
    (fractional : BranchAndBound.isFractional tolerance value = true) {values : List Rat}
    (feasible : (pending.relaxed problem).Feasible values) (present : values[j.val]? = some value)
    (nextId : Nat) :
    ∀ child ∈ BranchAndBound.childrenOf problem pending nextId (.branched j value),
      ∃ box, child.Confined problem integral total box := by
  obtain ⟨below, above⟩ := confined.contains values feasible j masked value present
  obtain ⟨low, apart, high⟩ := BranchAndBound.between_of_isFractional nonneg fractional below above
  intro child member
  rcases List.mem_pair.1 member with rfl | rfl
  · refine ⟨_, confined.child masked low (by omega) _ fun point feasible holds level listed => ?_⟩
    have cap := (BranchAndBound.holds_boundAbove_iff feasible.length j value).1 holds
    have reached := problem.levelAt_of_getElem? feasible.length listed
    exact ⟨(confined.contains point feasible j masked level listed).1, reached.symm.trans_le cap⟩
  · refine ⟨_, confined.child masked high (by omega) _ fun point feasible holds level listed => ?_⟩
    have floor := (BranchAndBound.holds_boundBelow_iff feasible.length j value).1 holds
    have reached := problem.levelAt_of_getElem? feasible.length listed
    exact ⟨floor.trans_eq reached, (confined.contains point feasible j masked level listed).2⟩

end PendingNode.Confined

/-! ### The room of a search -/

/-- The most nodes that a waiting node and its descendants can make, when no node is deeper than
a total. -/
def PendingNode.room (total : Nat) (pending : PendingNode Rat) : Nat :=
  2 ^ (total + 1 - pending.depth) - 1

/-- Two children have less room than their parent. -/
theorem PendingNode.room_children (pending first second : PendingNode Rat)
    (inside : pending.depth < total) (firstDepth : first.depth = pending.depth + 1)
    (secondDepth : second.depth = pending.depth + 1) :
    first.room total + second.room total + 1 = pending.room total := by
  unfold room
  rw [firstDepth, secondDepth, Nat.add_sub_add_right,
    show total + 1 - pending.depth = total - pending.depth + 1 by omega, pow_succ]
  have positive : 0 < 2 ^ (total - pending.depth) := by positivity
  omega

/-- The invariant of a search over bounded variables: the waiting nodes are confined, no listed
node is too deep, and the listed nodes and the room of the waiting ones are not too many. -/
structure BoundedSearch (problem : Problem Rat) (integral : Vector Bool problem.numVars)
    (total : Nat) (stack : List (PendingNode Rat)) (state : SearchState Rat problem.numVars) :
    Prop where
  refines : ∀ pending ∈ stack, pending.Refines problem
  confined : ∀ pending ∈ stack, ∃ box, pending.Confined problem integral total box
  depth_le : ∀ node ∈ state.nodes, node.depth ≤ total
  room : state.nodes.size + (stack.map (PendingNode.room total)).sum < 2 ^ (total + 1)

namespace BoundedSearch

variable {settings : BranchAndBound Rat} {rest : List (PendingNode Rat)}
  {state : SearchState Rat problem.numVars}

theorem start (valid : problem.Valid) {box : Box problem.numVars}
    (confined : (BranchAndBound.rootNode problem).Confined problem integral total box) :
    BoundedSearch problem integral total [BranchAndBound.rootNode problem] ⟨1, #[], none⟩ where
  refines pending member := by
    rw [List.mem_singleton.1 member]
    exact ⟨fun _ kept => kept, valid.constraints_fit⟩
  confined pending member := by
    rw [List.mem_singleton.1 member]
    exact ⟨box, confined⟩
  depth_le node member := absurd member (Array.not_mem_empty node)
  room := by
    have positive : 0 < 2 ^ (total + 1) := by positivity
    show 0 + ((2 ^ (total + 1) - 1) + 0) < 2 ^ (total + 1)
    omega

/-- What a visit has to show for the invariant to hold after it. -/
theorem next (invariant : BoundedSearch problem integral total (pending :: rest) state)
    {node : SearchNode Rat problem.numVars} {later : SearchState Rat problem.numVars}
    {children : List (PendingNode Rat)}
    (visit : BranchAndBound.Visit settings problem integral pending state node later children)
    (confined : ∀ child ∈ children, ∃ box, child.Confined problem integral total box)
    (room : (children.map (PendingNode.room total)).sum + 1 ≤ pending.room total) :
    BoundedSearch problem integral total (children ++ rest) later where
  refines waiting member := by
    rcases List.mem_append.1 member with child | older
    · have refines := invariant.refines pending List.mem_cons_self
      rw [visit.spawned] at child
      exact refines.childrenOf _ waiting child
    · exact invariant.refines waiting (List.mem_cons_of_mem _ older)
  confined waiting member := by
    rcases List.mem_append.1 member with child | older
    · exact confined waiting child
    · exact invariant.confined waiting (List.mem_cons_of_mem _ older)
  depth_le listed member := by
    rw [visit.nodes] at member
    rcases Array.mem_push.1 member with older | rfl
    · exact invariant.depth_le listed older
    · obtain ⟨box, inside⟩ := invariant.confined pending List.mem_cons_self
      exact (congrArg PendingNode.depth visit.place).trans_le inside.depth_le
  room := by
    have earlier := invariant.room
    rw [List.map_cons, List.sum_cons] at earlier
    rw [visit.nodes, Array.size_push, List.map_append, List.sum_append]
    omega

/-- Whatever becomes of a confined node, its children are confined and have less room. -/
theorem spawned {tolerance : Rat} (nonneg : 0 ≤ tolerance) {box : Box problem.numVars}
    (confined : pending.Confined problem integral total box) {best : Option (Incumbent Rat)}
    {outcome : Outcome Rat} {fate : NodeFate Rat problem.numVars}
    (judged : BranchAndBound.FateOf tolerance problem.sense integral best outcome fate)
    (feasible : ∀ values objective, outcome = .optimal values objective →
      (pending.relaxed problem).Feasible values) (nextId : Nat) :
    (∀ child ∈ BranchAndBound.childrenOf problem pending nextId fate,
        ∃ box, child.Confined problem integral total box) ∧
      ((BranchAndBound.childrenOf problem pending nextId fate).map
        (PendingNode.room total)).sum + 1 ≤ pending.room total := by
  have noChildren : (([] : List (PendingNode Rat)).map (PendingNode.room total)).sum + 1 ≤
      pending.room total := by
    have positive := Nat.pow_le_pow_right two_pos
      (Nat.le_sub_of_add_le' (Nat.add_le_add_right confined.depth_le 1))
    unfold PendingNode.room
    rw [pow_one] at positive
    simp only [List.map_nil, List.sum_nil]
    omega
  cases judged with
  | infeasible | notSolved | bounded | integral =>
    exact ⟨fun child member => (List.not_mem_nil member).elim, noChildren⟩
  | branched values objective j value found =>
    obtain ⟨present, masked, fractional⟩ :=
      BranchAndBound.fractional_of_fractionalVariable?_eq_some found
    have children := confined.childrenOf_branched masked nonneg fractional
      (feasible values objective rfl) present nextId
    refine ⟨children, ?_⟩
    obtain ⟨box, first⟩ := children _ List.mem_cons_self
    have deeper : pending.depth + 1 ≤ total := first.depth_le
    have room := pending.room_children
      (BranchAndBound.child pending nextId (BranchAndBound.boundAbove problem j value))
      (BranchAndBound.child pending (nextId + 1) (BranchAndBound.boundBelow problem j value))
      deeper rfl rfl
    unfold BranchAndBound.childrenOf
    simp only [List.map_cons, List.map_nil, List.sum_cons, List.sum_nil]
    omega

/-- One visit keeps the invariant. -/
theorem visit (exactSolver : settings.solver.tolerance = 0)
    (nonneg : 0 ≤ settings.integerTolerance) (valid : problem.Valid)
    (invariant : BoundedSearch problem integral total (pending :: rest) state) :
    ∃ later children, settings.visit problem integral pending state = .ok (later, children) ∧
      BoundedSearch problem integral total (children ++ rest) later := by
  have refines := invariant.refines pending List.mem_cons_self
  obtain ⟨box, confined⟩ := invariant.confined pending List.mem_cons_self
  obtain ⟨relaxation, solved, optimal, _⟩ :=
    settings.solver.outcome_sound exactSolver (refines.valid valid)
  have judged := BranchAndBound.fateOf_cases settings problem.sense integral state.best
    relaxation.outcome
  obtain ⟨_, _, _, _, visited⟩ :=
    BranchAndBound.visit_of_solve settings integral state solved rfl
  obtain ⟨node, done⟩ := BranchAndBound.exists_visit visited
  obtain ⟨children, room⟩ := spawned nonneg confined judged
    (fun values objective reached => (optimal values objective reached).1.feasible) state.nextId
  exact ⟨_, _, visited, invariant.next done children room⟩

end BoundedSearch

/-! ### The end of a search -/

/-- The bounds of the masked variables, added up. -/
def maskedTotal {k : Nat} (mask : List Bool) (bounds : Fin k → Nat) : Nat :=
  ∑ j : Fin k, if mask[j.val]? = some true then bounds j else 0

/-- The bounds of the integral variables confine the root. -/
theorem confined_rootNode {bounds : Fin problem.numVars → Nat}
    (bounded : ∀ point, problem.Feasible point → ∀ j : Fin problem.numVars,
      integral.toList[j.val]? = some true → ∀ level, point[j.val]? = some level →
        level ≤ bounds j) :
    (BranchAndBound.rootNode problem).Confined problem integral
      (maskedTotal integral.toList bounds) ⟨fun _ => 0, fun j => bounds j⟩ where
  nonempty j _ := Int.natCast_nonneg (bounds j)
  contains point feasible j masked level present := by
    have listed := (BranchAndBound.getElem?_mask integral j).trans (congrArg some masked)
    refine ⟨?_, ?_⟩
    · exact_mod_cast feasible.nonneg level (List.mem_of_getElem? present)
    · exact_mod_cast bounded point feasible j listed level present
  depth_add_width := by
    unfold Box.width maskedTotal BranchAndBound.rootNode
    simp only [BranchAndBound.getElem?_mask, Option.some.injEq]
    push_cast
    simp

/-- A search over bounded integral variables ends. When the relaxations are solved without
tolerance and every feasible point keeps the masked variables below some whole numbers, no node is
deeper than the sum of these numbers, there are fewer nodes than in a full binary tree of that
depth, and a search that may solve as many does not reach its limit. -/
theorem BranchAndBound.solveMixed_ends (settings : BranchAndBound Rat)
    (exactSolver : settings.solver.tolerance = 0) (nonneg : 0 ≤ settings.integerTolerance)
    (problem : Problem Rat) (valid : problem.Valid) (mask : List Bool)
    (length : mask.length = problem.numVars) (bounds : Fin problem.numVars → Nat)
    (bounded : ∀ point, problem.Feasible point → ∀ j : Fin problem.numVars,
      mask[j.val]? = some true → ∀ level, point[j.val]? = some level → level ≤ bounds j) :
    ∃ tree, settings.solveMixed problem mask = .ok tree ∧
      (∀ node ∈ tree.nodes, node.depth ≤ maskedTotal mask bounds) ∧
      tree.nodes.size < 2 ^ (maskedTotal mask bounds + 1) ∧
      (2 ^ (maskedTotal mask bounds + 1) ≤ settings.maxNodes → tree.limitReached = false) := by
  obtain ⟨integral, masked, rfl⟩ := vectorOf?_of_length length
  obtain ⟨tree, explored, left, nextId, invariant, _⟩ := settings.explore_induction
    (BoundedSearch problem integral (maskedTotal integral.toList bounds))
    (fun _ _ _ invariant => invariant.visit exactSolver nonneg valid) settings.maxNodes
    (BoundedSearch.start valid (confined_rootNode bounded))
  have few : tree.nodes.size < 2 ^ (maskedTotal integral.toList bounds + 1) :=
    (Nat.le_add_right _ _).trans_lt invariant.room
  refine ⟨tree, ?_, invariant.depth_le, few, fun enough => ?_⟩
  · unfold solveMixed
    rw [problem.validate_of_valid valid, masked]
    exact explored
  · by_contra reached
    have all := (explore_size explored).2 (Bool.not_eq_false _ ▸ reached)
    rw [Array.size_empty, Nat.zero_add] at all
    omega

/-- The constraints of the knapsack keep its variables small. -/
theorem knapsackProblem_bounded (point : List Rat) (feasible : knapsackProblem.Feasible point) :
    ∃ first second, point = [first, second] ∧ first ≤ 4 ∧ second ≤ 3 := by
  obtain ⟨first, second, rfl⟩ := List.length_eq_two.1 feasible.length
  have nonneg := feasible.nonneg
  have weight : Scalar.dot [6, 4] [first, second] ≤ 24 := feasible.holds _ (List.Mem.head _)
  have volume : Scalar.dot [1, 2] [first, second] ≤ 6 :=
    feasible.holds _ (List.Mem.tail _ (List.Mem.head _))
  have firstNonneg : 0 ≤ first := nonneg first List.mem_cons_self
  have secondNonneg : 0 ≤ second := nonneg second (List.mem_cons_of_mem _ List.mem_cons_self)
  simp only [Scalar.dot, Scalar.sum_eq, List.zipWith_cons_cons, List.zipWith_nil_left,
    List.sum_cons, List.sum_nil] at weight
  simp only [Scalar.dot, Scalar.sum_eq, List.zipWith_cons_cons, List.zipWith_nil_left,
    List.sum_cons, List.sum_nil] at volume
  exact ⟨first, second, rfl, by linarith, by linarith⟩

/-- The statement at a search that branches twice before it ends. -/
theorem BranchAndBound.solveMixed_ends_knapsackProblem :
    knapsackProblem.Valid ∧ [true, true].length = knapsackProblem.numVars ∧
      maskedTotal [true, true] ![4, 3] = 7 ∧
      ∃ tree, ({ solver := { tolerance := 0 }, maxNodes := 256 } :
          BranchAndBound Rat).solveMixed knapsackProblem [true, true] = .ok tree ∧
        (∀ node ∈ tree.nodes, node.depth ≤ 7) ∧ tree.nodes.size < 256 ∧
        tree.limitReached = false := by
  have bounded : ∀ point, knapsackProblem.Feasible point → ∀ j : Fin 2,
      [true, true][j.val]? = some true → ∀ level, point[j.val]? = some level →
        level ≤ ((![4, 3] : Fin 2 → Nat) j : Rat) := by
    intro point feasible j _ level present
    obtain ⟨first, second, rfl, firstSmall, secondSmall⟩ := knapsackProblem_bounded point feasible
    fin_cases j
    · cases present
      exact firstSmall
    · cases present
      exact secondSmall
  obtain ⟨tree, searched, depth, few, ends⟩ := solveMixed_ends
    { solver := { tolerance := 0 }, maxNodes := 256 } rfl (by decide +kernel) knapsackProblem
    knapsackProblem_valid [true, true] rfl ![4, 3] bounded
  exact ⟨knapsackProblem_valid, rfl, rfl, tree, searched, depth, few, ends (by decide +kernel)⟩

end LinearProgramming
