/-
This file describes the tree that a search lists, whatever its numbers compute.

A node is a child of an earlier one and adds one bound to its constraints. The numbers of two
siblings are given out together when their parent branches, but the second sibling is listed only
after all that grows from the first. So the listing is read as a preorder: a waiting node that is
visited is followed by what grows from its children, and then by what grows from the nodes that
waited with it. A search that stops early cuts the preorder off, and the nodes it visited are the
first of those that waited.
-/

import Mathlib
import LinearProgramming.Proofs.SearchCoverage
import LinearProgramming.Proofs.SearchRun

namespace LinearProgramming

variable {α : Type} {k : Nat}

/-! ### Listings in preorder -/

/-- The depth-first listing of some nodes of a tree and of all that grows from them: a node comes
first, then what grows from its children, then what grows from the nodes after it. -/
inductive SearchTree.Preorder (tree : SearchTree α k) :
    List (SearchNode α k) → List (SearchNode α k) → Prop
  | nil : tree.Preorder [] []
  | cons {node : SearchNode α k} {siblings below after : List (SearchNode α k)}
    (children : tree.Preorder (tree.children node.id) below)
    (others : tree.Preorder siblings after) :
    tree.Preorder (node :: siblings) (node :: (below ++ after))

namespace SearchTree.Preorder

variable {tree : SearchTree α k} {roots listing : List (SearchNode α k)}

/-- The listing of some nodes and of others after them is that of the ones before that of the
others. -/
theorem split {first second : List (SearchNode α k)}
    (preorder : tree.Preorder (first ++ second) listing) :
    ∃ below after, listing = below ++ after ∧ tree.Preorder first below ∧
      tree.Preorder second after := by
  induction first generalizing listing with
  | nil => exact ⟨[], listing, rfl, .nil, preorder⟩
  | cons node siblings inductionHypothesis =>
    cases preorder with
    | cons children others =>
      obtain ⟨below, after, rfl, left, right⟩ := inductionHypothesis others
      exact ⟨_, after, by rw [List.cons_append, List.append_assoc], .cons children left, right⟩

/-- A listing begins with the first of its nodes. -/
theorem head?_eq (preorder : tree.Preorder roots listing) : listing.head? = roots.head? := by
  cases preorder <;> rfl

end SearchTree.Preorder

/-- Roots that are made of the first nodes of two lists are split as the lists are. -/
theorem SearchNode.split_places {roots : List (SearchNode α k)}
    {children rest : List (PendingNode α)}
    (places : roots.map SearchNode.place <+: children ++ rest) :
    ∃ below after, roots = below ++ after ∧ below.map SearchNode.place <+: children ∧
      after.map SearchNode.place <+: rest ∧
      (roots.map SearchNode.place = children ++ rest →
        below.map SearchNode.place = children ∧ after.map SearchNode.place = rest) := by
  refine ⟨roots.take children.length, roots.drop children.length,
    (List.take_append_drop _ _).symm, ?_, ?_, fun all => ?_⟩
  · have first := places.take children.length
    rwa [← List.map_take, List.take_left] at first
  · have others := places.drop children.length
    rwa [← List.map_drop, List.drop_left] at others
  · rw [List.map_take, List.map_drop, all, List.take_left, List.drop_left]
    exact ⟨rfl, rfl⟩

theorem SearchNode.filter_parent_eq_nil {nodes : List (SearchNode α k)} {id : Nat}
    (others : ∀ node ∈ nodes, node.parent ≠ some id) :
    nodes.filter (fun node => node.parent == some id) = [] :=
  List.filter_eq_nil_iff.2 fun node member isChild => others node member (eq_of_beq isChild)

/-! ### Places in a tree -/

/-- A node has exactly one of the three fates. -/
theorem SearchNode.count_fates (node : SearchNode α k) :
    [node.pruneReason?.isSome, node.isIntegral, node.branching?.isSome].count true = 1 := by
  unfold pruneReason? isIntegral branching?
  cases node.fate <;> rfl

variable [Scalar α]

/-- The two sides on which a node can branch. -/
inductive Side where
  | left
  | right

/-- The relation of the bound on a side. -/
def Side.relation : Side → Relation
  | left => .atMost
  | right => .atLeast

/-- The whole number of the bound on a side. -/
def Side.whole : Side → α → α
  | left => Scalar.floor
  | right => Scalar.ceil

/-- The bound that a side sets to a variable with a value. -/
def Side.bound (side : Side) (name : String) (j : Fin k) (value : α) : Constraint α :=
  ⟨name, BranchAndBound.unitRow j, side.relation, side.whole value⟩

/-- The place is that of a child of a node on a side: the node branched on the value of a
variable, and the child is one deeper and adds the bound of its side. -/
structure PendingNode.IsChildOf (place : PendingNode α) (parent : SearchNode α k) (side : Side) :
    Prop where
  bounded : ∃ j value name, parent.branching? = some (j, value) ∧
    place.added = some (side.bound name j value) ∧
    place.constraints = parent.constraints ++ [side.bound name j value]
  depth : place.depth = parent.depth + 1
  parent : place.parent = some parent.id

/-- The place of a node in a tree, of which the nodes before it are known: it is the root and the
first, or it is that of a child of one of them. -/
inductive PendingNode.Follows (problem : Problem α) :
    List (SearchNode α problem.numVars) → PendingNode α → Prop
  | root : Follows problem [] (BranchAndBound.rootNode problem)
  | child {earlier : List (SearchNode α problem.numVars)} {place : PendingNode α}
    {parent : SearchNode α problem.numVars} {side : Side} (listed : parent ∈ earlier)
    (isChild : place.IsChildOf parent side) : Follows problem earlier place

/-- The children that a node can have: none, one on the left, or one on either side with numbers
that follow each other. -/
inductive SearchNode.Family (parent : SearchNode α k) : List (SearchNode α k) → Prop
  | none : parent.Family []
  | left {left : SearchNode α k} (isLeft : left.place.IsChildOf parent .left) :
    parent.Family [left]
  | both {left right : SearchNode α k} (isLeft : left.place.IsChildOf parent .left)
    (isRight : right.place.IsChildOf parent .right) (next : left.id + 1 = right.id) :
    parent.Family [left, right]

/-- A tree has the shape of a depth-first search for a problem. -/
structure SearchTree.IsWellFormed (settings : BranchAndBound α) (problem : Problem α)
    (tree : SearchTree α problem.numVars) : Prop where
  distinct : (tree.nodes.toList.map SearchNode.id).Nodup
  root : ∀ node, tree.root? = some node → node.place = BranchAndBound.rootNode problem
  parent : ∀ i node, tree.nodes[i + 1]? = some node →
    ∃ parent ∈ tree.nodes.toList.take (i + 1), ∃ side, node.place.IsChildOf parent side
  family : ∀ node ∈ tree.nodes, node.Family (tree.children node.id)
  complete : tree.limitReached = false → ∀ node ∈ tree.nodes, node.branching?.isSome = true →
    (tree.children node.id).length = 2
  fate : ∀ node ∈ tree.nodes,
    [node.pruneReason?.isSome, node.isIntegral, node.branching?.isSome].count true = 1
  relaxation : ∀ node ∈ tree.nodes,
    settings.solver.solve (problem.withConstraints node.constraints) = .ok node.relaxation
  preorder : tree.Preorder tree.root?.toList tree.nodes.toList
  size_le : tree.nodes.size ≤ settings.maxNodes
  size_eq : tree.limitReached = true → tree.nodes.size = settings.maxNodes

/-- A place that follows some nodes, and is not the first, follows these and one more. -/
theorem PendingNode.Follows.concat {problem : Problem α} {place : PendingNode α}
    {earlier : List (SearchNode α problem.numVars)} (follows : place.Follows problem earlier)
    (later : earlier = [] → place ≠ BranchAndBound.rootNode problem)
    (node : SearchNode α problem.numVars) : place.Follows problem (earlier ++ [node]) := by
  cases follows with
  | root => exact absurd rfl (later rfl)
  | child listed isChild => exact .child (List.mem_append_left _ listed) isChild

/-- The first place is that of the root. -/
theorem PendingNode.Follows.eq_rootNode {problem : Problem α} {place : PendingNode α}
    (follows : place.Follows problem []) : place = BranchAndBound.rootNode problem := by
  cases follows with
  | root => rfl
  | child listed => exact absurd listed List.not_mem_nil

/-- Any other place is that of a child of a node before it. -/
theorem PendingNode.Follows.exists_parent {problem : Problem α} {place : PendingNode α}
    {earlier : List (SearchNode α problem.numVars)} (follows : place.Follows problem earlier)
    (notFirst : earlier ≠ []) : ∃ parent ∈ earlier, ∃ side, place.IsChildOf parent side := by
  cases follows with
  | root => exact absurd rfl notFirst
  | child listed isChild => exact ⟨_, listed, _, isChild⟩

/-- The parent of a place is one of the nodes before it. -/
theorem PendingNode.Follows.parent_mem {problem : Problem α} {place : PendingNode α}
    {earlier : List (SearchNode α problem.numVars)} (follows : place.Follows problem earlier)
    {id : Nat} (parent : place.parent = some id) : id ∈ earlier.map SearchNode.id := by
  cases follows with
  | root => cases parent
  | child listed isChild =>
    obtain rfl := Option.some.inj (isChild.parent.symm.trans parent)
    exact List.mem_map_of_mem listed

namespace BranchAndBound

variable {settings : BranchAndBound α} {problem : Problem α}
  {integral : Vector Bool problem.numVars} {pending : PendingNode α}
  {node : SearchNode α problem.numVars} {state later : SearchState α problem.numVars}
  {children rest stack : List (PendingNode α)}

/-! ### The children that a visit leaves -/

namespace Visit

variable (visit : Visit settings problem integral pending state node later children)
include visit

theorem id_eq : node.id = pending.id := congrArg PendingNode.id visit.place

theorem parent_eq : node.parent = pending.parent := congrArg PendingNode.parent visit.place

/-- The children have the numbers that are free next. -/
theorem children_ids :
    children.map PendingNode.id = List.range' state.nextId children.length := by
  rw [visit.spawned]
  cases node.fate <;> rfl

/-- The numbers after a visit are those before it and those of the children. -/
theorem perm_ids : (later.nodes.toList.map SearchNode.id ++
      (children ++ rest).map PendingNode.id).Perm
    ((state.nodes.toList.map SearchNode.id ++ (pending :: rest).map PendingNode.id) ++
      List.range' state.nextId children.length) := by
  rw [visit.nodes, Array.toList_push, List.map_append, List.map_append, visit.children_ids]
  simp only [List.map_cons, List.map_nil, visit.id_eq, List.append_assoc, List.cons_append,
    List.nil_append]
  exact (List.perm_append_comm.cons _).append_left _

/-- A visit leaves no children, or one on either side of the node. -/
theorem children_cases :
    (children = [] ∧ node.branching? = none) ∨
      ∃ left right, children = [left, right] ∧ left.IsChildOf node .left ∧
        right.IsChildOf node .right ∧ left.id + 1 = right.id := by
  obtain ⟨rfl, _, _, spawned, _⟩ := visit
  subst spawned
  cases fate : node.fate with
  | pruned reason => exact Or.inl ⟨rfl, by rw [SearchNode.branching?, fate]⟩
  | integral => exact Or.inl ⟨rfl, by rw [SearchNode.branching?, fate]⟩
  | branched j value =>
    have branching : node.branching? = some (j, value) := by rw [SearchNode.branching?, fate]
    exact Or.inr ⟨_, _, rfl, ⟨⟨j, value, _, branching, rfl, rfl⟩, rfl, rfl⟩,
      ⟨⟨j, value, _, branching, rfl, rfl⟩, rfl, rfl⟩, rfl⟩

theorem length_children (branched : node.branching?.isSome = true) : children.length = 2 := by
  rcases visit.children_cases with ⟨_, notBranched⟩ | ⟨left, right, rfl, _⟩
  · rw [notBranched] at branched
    cases branched
  · rfl

/-- Every child follows the visited node. -/
theorem children_follow {child : PendingNode α} (member : child ∈ children) :
    child.parent = some node.id ∧ child.Follows problem later.nodes.toList := by
  have listed : node ∈ later.nodes.toList := by
    rw [visit.nodes, Array.toList_push]
    exact List.mem_append_right _ (List.mem_singleton.2 rfl)
  rcases visit.children_cases with ⟨rfl, _⟩ | ⟨left, right, rfl, isLeft, isRight, _⟩
  · exact absurd member List.not_mem_nil
  · rcases List.mem_pair.1 member with rfl | rfl
    · exact ⟨isLeft.parent, .child listed isLeft⟩
    · exact ⟨isRight.parent, .child listed isRight⟩

/-- The nodes that are made of the first children are a family, and a full one when they are made
of all. -/
theorem family {below : List (SearchNode α problem.numVars)}
    (places : below.map SearchNode.place <+: children) : node.Family below := by
  rcases visit.children_cases with ⟨rfl, _⟩ | ⟨left, right, rfl, isLeft, isRight, next⟩
  · rw [List.map_eq_nil_iff.1 (List.prefix_nil.1 places)]
    exact .none
  · match below, places with
    | [], _ => exact .none
    | [first], places =>
      obtain ⟨rfl, _⟩ := List.cons_prefix_cons.1 places
      exact .left isLeft
    | first :: second :: others, places =>
      obtain ⟨rfl, onward⟩ := List.cons_prefix_cons.1 places
      obtain ⟨rfl, ended⟩ := List.cons_prefix_cons.1 onward
      rw [List.map_eq_nil_iff.1 (List.prefix_nil.1 ended)]
      exact .both isLeft isRight next

/-- The nodes that are made of the first children are in the order of their numbers. -/
theorem pairwise_ids {below : List (SearchNode α problem.numVars)}
    (places : below.map SearchNode.place <+: children) :
    below.Pairwise fun left right => decide (left.id ≤ right.id) = true := by
  have ids := places.map PendingNode.id
  rw [visit.children_ids, List.map_map] at ids
  have sorted := List.Pairwise.sublist ids.sublist List.pairwise_lt_range'
  exact (List.pairwise_map.1 sorted).imp fun less => decide_eq_true (Nat.le_of_lt less)

end Visit

/-! ### The nodes that are listed and those that wait -/

/-- The invariant of a search, on the listed nodes and the waiting ones: their numbers are
distinct and not free, every listed node was solved and follows the nodes before it, and every
waiting node follows all of them. -/
structure Growing (settings : BranchAndBound α) (problem : Problem α)
    (stack : List (PendingNode α)) (state : SearchState α problem.numVars) : Prop where
  distinct : (state.nodes.toList.map SearchNode.id ++ stack.map PendingNode.id).Nodup
  taken : ∀ id ∈ state.nodes.toList.map SearchNode.id ++ stack.map PendingNode.id,
    id < state.nextId
  solved : ∀ node ∈ state.nodes,
    settings.solver.solve (problem.withConstraints node.constraints) = .ok node.relaxation
  listed : ∀ (i : Nat) (node : SearchNode α problem.numVars), state.nodes[i]? = some node →
    node.place.Follows problem (state.nodes.toList.take i)
  waiting : ∀ pending ∈ stack, pending.Follows problem state.nodes.toList

namespace Growing

theorem start : Growing settings problem [rootNode problem] ⟨1, #[], none⟩ where
  distinct := List.nodup_singleton _
  taken id member := by
    rw [List.mem_singleton.1 member]
    exact Nat.one_pos
  solved node member := absurd member (Array.not_mem_empty node)
  listed i node found := by
    rw [Array.getElem?_empty] at found
    cases found
  waiting pending member := by
    rw [List.mem_singleton.1 member]
    exact .root

variable (growing : Growing settings problem (pending :: rest) state)
include growing

/-- The nodes that wait with the first one stay places of the tree when it is listed. -/
theorem follows_concat {waits : PendingNode α} (member : waits ∈ rest)
    (node : SearchNode α problem.numVars) :
    waits.Follows problem (state.nodes.toList ++ [node]) := by
  have follows := growing.waiting waits (List.mem_cons_of_mem _ member)
  refine follows.concat (fun first isRoot => ?_) node
  -- before the root is listed it waits alone
  have apart := growing.distinct
  have top := growing.waiting pending List.mem_cons_self
  rw [first] at apart top
  subst isRoot
  cases top with
  | root => exact (List.nodup_cons.1 apart).1 (List.mem_map_of_mem member)
  | child listed => exact absurd listed List.not_mem_nil

/-- One visit keeps the invariant. -/
theorem next (visit : Visit settings problem integral pending state node later children) :
    Growing settings problem (children ++ rest) later where
  distinct := by
    refine visit.perm_ids.nodup_iff.2 (List.nodup_append.2
      ⟨growing.distinct, List.nodup_range', fun old taken new free => ?_⟩)
    exact Nat.ne_of_lt ((growing.taken old taken).trans_le (List.mem_range'_1.1 free).1)
  taken id member := by
    rw [visit.nextId]
    rcases List.mem_append.1 (visit.perm_ids.mem_iff.1 member) with old | new
    · exact (growing.taken id old).trans_le (Nat.le_add_right _ _)
    · exact (List.mem_range'_1.1 new).2
  solved listed member := by
    rw [visit.nodes] at member
    rcases Array.mem_push.1 member with older | rfl
    · exact growing.solved listed older
    · exact (congrArg (fun place => settings.solver.solve
        (problem.withConstraints (PendingNode.constraints place))) visit.place).trans visit.solved
  listed i listed found := by
    rw [visit.nodes] at found ⊢
    rw [Array.toList_push]
    rw [Array.getElem?_push] at found
    split at found
    · rename_i last
      obtain rfl := Option.some.inj found
      rw [visit.place, last, List.take_left' state.nodes.length_toList]
      exact growing.waiting pending List.mem_cons_self
    · have inRange := (Array.getElem?_eq_some_iff.1 found).1
      rw [List.take_append_of_le_length (Nat.le_of_lt inRange)]
      exact growing.listed i listed found
  waiting waits member := by
    rcases List.mem_append.1 member with child | older
    · exact (visit.children_follow child).2
    · rw [visit.nodes, Array.toList_push]
      exact growing.follows_concat older node

/-- No listed node is a child of one that waits. -/
theorem parent_ne_of_listed {listed : SearchNode α problem.numVars}
    (member : listed ∈ state.nodes.toList) : listed.parent ≠ some pending.id := by
  intro isChild
  obtain ⟨i, found⟩ := Array.getElem?_of_mem (Array.mem_toList_iff.1 member)
  have known := (growing.listed i listed found).parent_mem isChild
  have earlier := List.map_subset SearchNode.id (List.take_subset i _) known
  exact (List.nodup_append.1 growing.distinct).2.2 _ earlier _ List.mem_cons_self rfl

/-- No waiting node is a child of the first one that waits. -/
theorem parent_ne_of_waiting {waits : PendingNode α} (member : waits ∈ pending :: rest) :
    waits.parent ≠ some pending.id := by
  intro isChild
  have known := (growing.waiting waits member).parent_mem isChild
  exact (List.nodup_append.1 growing.distinct).2.2 _ known _ List.mem_cons_self rfl

end Growing

/-! ### What grows from waiting nodes -/

variable {tree : SearchTree α problem.numVars}
  {earlier roots listing below after : List (SearchNode α problem.numVars)}

/-- What grew from waiting nodes: the roots are made of the first of them, and the listing of the
roots and of all that grew from them ends the tree. A node in the listing whose parent is not in it
is a root, so the children of a node that was listed just before are found among the roots. -/
structure Grown (tree : SearchTree α problem.numVars) (stack : List (PendingNode α))
    (earlier roots listing : List (SearchNode α problem.numVars)) : Prop where
  nodes : tree.nodes.toList = earlier ++ listing
  places : roots.map SearchNode.place <+: stack
  all : tree.limitReached = false → roots.map SearchNode.place = stack
  preorder : tree.Preorder roots listing
  family : ∀ node ∈ listing, node.Family (tree.children node.id)
  complete : tree.limitReached = false → ∀ node ∈ listing, node.branching?.isSome = true →
    (tree.children node.id).length = 2
  orphans : ∀ id ∉ listing.map SearchNode.id,
    listing.filter (fun node => node.parent == some id) =
      roots.filter fun node => node.parent == some id

namespace Visit

variable (visit : Visit settings problem integral pending state node later children)
  (growing : Growing settings problem (pending :: rest) state)
include visit

theorem parent_of_place (places : below.map SearchNode.place <+: children)
    {root : SearchNode α problem.numVars} (member : root ∈ below) :
    root.parent = some node.id :=
  (visit.children_follow (places.subset (List.mem_map_of_mem member))).1

include growing

/-- The solved children of a visited node are the nodes that are made of the children it left. -/
theorem children_eq (distinct : (tree.nodes.toList.map SearchNode.id).Nodup)
    (grown : Grown tree (children ++ rest) later.nodes.toList (below ++ after) listing)
    (first : below.map SearchNode.place <+: children)
    (others : after.map SearchNode.place <+: rest) : tree.children node.id = below := by
  have listed : ∀ other ∈ later.nodes.toList, other.parent ≠ some node.id := by
    intro other member
    rw [visit.nodes, Array.toList_push] at member
    rw [visit.id_eq]
    rcases List.mem_append.1 member with older | itself
    · exact growing.parent_ne_of_listed older
    · rw [List.mem_singleton.1 itself, visit.parent_eq]
      exact growing.parent_ne_of_waiting List.mem_cons_self
  have waiting : ∀ other ∈ after, other.parent ≠ some node.id := by
    intro other member
    rw [visit.id_eq]
    have waits := others.subset (List.mem_map_of_mem member)
    exact growing.parent_ne_of_waiting (List.mem_cons_of_mem _ waits)
  have made : below.filter (fun other => other.parent == some node.id) = below :=
    List.filter_eq_self.2 fun other member => beq_iff_eq.2 (visit.parent_of_place first member)
  have outside : node.id ∉ listing.map SearchNode.id := by
    intro again
    rw [grown.nodes, visit.nodes, Array.toList_push, List.map_append, List.map_append] at distinct
    refine (List.nodup_append.1 distinct).2.2 _ (List.mem_append_right _ ?_) _ again rfl
    exact List.mem_singleton_self _
  unfold SearchTree.children
  rw [grown.nodes, List.filter_append, SearchNode.filter_parent_eq_nil listed,
    grown.orphans node.id outside, List.filter_append, made,
    SearchNode.filter_parent_eq_nil waiting, List.append_nil, List.nil_append]
  exact List.mergeSort_of_pairwise (visit.pairwise_ids first)

end Visit

/-- Nothing grows from the nodes that wait at the end of a search. -/
theorem Grown.ended (nodes : tree.nodes.toList = earlier)
    (all : tree.limitReached = false → [] = stack) : Grown tree stack earlier [] [] where
  nodes := nodes.trans (List.append_nil _).symm
  places := List.nil_prefix
  all := all
  preorder := .nil
  family _ member := absurd member List.not_mem_nil
  complete _ _ member := absurd member List.not_mem_nil
  orphans _ _ := rfl

/-- The root of a tree is all that is made of a single waiting node. -/
theorem Grown.eq_root? (grown : Grown tree [pending] [] roots listing) :
    roots = tree.root?.toList := by
  have first : tree.root? = roots.head? := by
    rw [← grown.preorder.head?_eq, List.head?_eq_getElem?, ← List.nil_append listing, ← grown.nodes,
      Array.getElem?_toList]
    rfl
  rw [first]
  match roots, grown.places with
  | [], _ => rfl
  | root :: others, places =>
    rw [List.map_eq_nil_iff.1 (List.prefix_nil.1 (List.cons_prefix_cons.1 places).2)]
    rfl

/-- What grew from the nodes that wait after a visit grew from those before it. -/
theorem Grown.visit (visit : Visit settings problem integral pending state node later children)
    (growing : Growing settings problem (pending :: rest) state)
    (distinct : (tree.nodes.toList.map SearchNode.id).Nodup)
    (grown : Grown tree (children ++ rest) later.nodes.toList roots listing) :
    ∃ roots, Grown tree (pending :: rest) state.nodes.toList roots (node :: listing) := by
  -- the roots are made of the children that the visit left, then of the nodes that waited with it
  obtain ⟨below, after, rfl, first, others, full⟩ := SearchNode.split_places grown.places
  have solved := visit.children_eq growing distinct grown first others
  obtain ⟨left, right, rfl, leftOrder, rightOrder⟩ := grown.preorder.split
  refine ⟨node :: after, ?_, ?_, ?_, ?_, ?_, ?_, ?_⟩
  · rw [grown.nodes, visit.nodes, Array.toList_push, List.append_assoc]
    rfl
  · rw [List.map_cons, visit.place]
    exact List.cons_prefix_cons.2 ⟨rfl, others⟩
  · intro finished
    rw [List.map_cons, visit.place, (full (grown.all finished)).2]
  · exact .cons (solved ▸ leftOrder) rightOrder
  · intro listed member
    rcases List.mem_cons.1 member with rfl | further
    · rw [solved]
      exact visit.family first
    · exact grown.family listed further
  · intro finished listed member branched
    rcases List.mem_cons.1 member with rfl | further
    · rw [solved, ← List.length_map, (full (grown.all finished)).1]
      exact visit.length_children branched
    · exact grown.complete finished listed further branched
  · intro id outside
    obtain ⟨apart, elsewhere⟩ := not_or.1 (List.mem_cons.not.1 outside)
    have made : ∀ other ∈ below, other.parent ≠ some id := by
      intro other member isChild
      rw [visit.parent_of_place first member] at isChild
      exact apart (Option.some.inj isChild).symm
    rw [List.filter_cons, List.filter_cons, grown.orphans id elsewhere, List.filter_append,
      SearchNode.filter_parent_eq_nil made, List.nil_append]

/-- A search goes on with what grows from the nodes that wait. -/
theorem exists_grown {remaining : Nat} (growing : Growing settings problem stack state)
    (explored : settings.explore problem integral remaining stack state = .ok tree)
    (distinct : (tree.nodes.toList.map SearchNode.id).Nodup) :
    ∃ roots listing, Grown tree stack state.nodes.toList roots listing := by
  -- the tree at the end is the same for every visit, and with it the children of each node
  induction remaining generalizing stack state with
  | zero =>
    cases stack with
    | nil =>
      cases explored
      exact ⟨[], [], Grown.ended rfl fun _ => rfl⟩
    | cons pending rest =>
      cases explored
      exact ⟨[], [], Grown.ended rfl nofun⟩
  | succ remaining inductionHypothesis =>
    cases stack with
    | nil =>
      cases explored
      exact ⟨[], [], Grown.ended rfl fun _ => rfl⟩
    | cons pending rest =>
      obtain ⟨node, later, children, visit, goesOn⟩ := exists_visit_of_explore explored
      obtain ⟨roots, listing, grown⟩ := inductionHypothesis (growing.next visit) goesOn
      obtain ⟨roots, grown⟩ := grown.visit visit growing distinct
      exact ⟨roots, node :: listing, grown⟩

/-- Every tree that a search returns is well formed, whatever the scalars compute. -/
theorem solveMixed_isWellFormed (settings : BranchAndBound α) (problem : Problem α)
    (mask : List Bool) (tree : SearchTree α problem.numVars)
    (searched : settings.solveMixed problem mask = .ok tree) :
    tree.IsWellFormed settings problem := by
  obtain ⟨integral, _, explored⟩ := explore_of_solveMixed searched
  obtain ⟨left, nextId, final, _⟩ := explore_keeps (Growing settings problem)
    (fun _ _ _ _ _ _ growing visit => growing.next visit) Growing.start explored
  have distinct := (List.nodup_append.1 final.distinct).1
  obtain ⟨roots, listing, grown⟩ := exists_grown Growing.start explored distinct
  obtain rfl : tree.nodes.toList = listing := grown.nodes
  have size := explore_size explored
  rw [Array.size_empty, Nat.zero_add] at size
  have notFirst : ∀ (i : Nat) (node : SearchNode α problem.numVars),
      tree.nodes[i + 1]? = some node → tree.nodes.toList.take (i + 1) ≠ [] := by
    intro i node found
    have inRange : i + 1 < tree.nodes.size := (Array.getElem?_eq_some_iff.1 found).1
    refine List.ne_nil_of_length_pos ?_
    rw [List.length_take, Array.length_toList]
    omega
  exact
    { distinct
      root := fun node found => (final.listed 0 node found).eq_rootNode
      parent := fun i node found =>
        (final.listed (i + 1) node found).exists_parent (notFirst i node found)
      family := fun node member => grown.family node (Array.mem_toList_iff.2 member)
      complete := fun finished node member =>
        grown.complete finished node (Array.mem_toList_iff.2 member)
      fate := fun node _ => node.count_fates
      relaxation := final.solved
      preorder := grown.eq_root? ▸ grown.preorder
      size_le := size.1
      size_eq := size.2 }

/-- The statement at a search whose second child is listed after two grandchildren with greater
numbers. -/
theorem solveMixed_isWellFormed_knapsackProblem :
    ∃ tree, ({ solver := { tolerance := 0 } } : BranchAndBound Rat).solveMixed knapsackProblem
        [true, true] = .ok tree ∧
      tree.IsWellFormed ({ solver := { tolerance := 0 } } : BranchAndBound Rat) knapsackProblem ∧
      tree.nodes.toList.map SearchNode.id = [0, 1, 3, 4, 2] := by
  have ran : (({ solver := { tolerance := 0 } } : BranchAndBound Rat).solveMixed knapsackProblem
      [true, true]).map (fun tree => tree.nodes.toList.map SearchNode.id) =
        .ok [0, 1, 3, 4, 2] := by decide +kernel
  cases searched : ({ solver := { tolerance := 0 } } : BranchAndBound Rat).solveMixed
      knapsackProblem [true, true] with
  | error fault =>
    rw [searched] at ran
    cases ran
  | ok tree =>
    rw [searched] at ran
    exact ⟨tree, rfl, solveMixed_isWellFormed _ _ _ _ searched, Except.ok.inj ran⟩

end BranchAndBound

end LinearProgramming
