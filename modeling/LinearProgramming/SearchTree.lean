/-
This file holds the tree of a branch-and-bound search.

A node is a problem with further bounds on its variables, solved without regard to integrality.
What becomes of a node is one of three things: it is pruned, its point is integral and becomes
the incumbent, or it branches on a variable with a fractional value. Nodes are listed in the
order in which they are solved.
-/

import LinearProgramming.Simplex.Solution

namespace LinearProgramming

/-- Why a node has no children and no solution of its own. -/
inductive PruneReason (α : Type) where
  | infeasible
  | notSolved (status : Status)
  | bounded (incumbent : Extended α) (sense : Sense)

/-- What became of a node of a search over `k` variables. -/
inductive NodeFate (α : Type) (k : Nat) where
  | pruned (reason : PruneReason α)
  | integral
  | branched (variableIndex : Fin k) (value : α)

/-- A solved node: its place in the tree, its constraints with the bound it added last, its
relaxation and its fate. -/
structure SearchNode (α : Type) (k : Nat) where
  id : Nat
  parent : Option Nat
  depth : Nat
  constraints : List (Constraint α)
  added : Option (Constraint α)
  relaxation : Solution α
  fate : NodeFate α k

/-- The best integral point found so far. -/
structure Incumbent (α : Type) where
  node : Nat
  objective : α
  values : List α

/-- The result of a search: the solved nodes in order, the best integral point, and whether nodes
were left over when the limit was reached. -/
structure SearchTree (α : Type) (k : Nat) where
  nodes : Array (SearchNode α k)
  best : Option (Incumbent α)
  limitReached : Bool

variable {α : Type} {k : Nat}

/-- The reason in words. -/
def PruneReason.text [Scalar α] : PruneReason α → String
  | infeasible => "Infeasible"
  | notSolved status => "Not solved (" ++ status.text ++ ")"
  | bounded incumbent sense =>
    let bound := match incumbent with
      | .negInf => "-inf"
      | .finite number => Scalar.fixedText 2 number
      | .posInf => "inf"
    match sense with
    | .maximize => "Bounded (Z <= " ++ bound ++ ")"
    | .minimize => "Bounded (Z >= " ++ bound ++ ")"

namespace SearchNode

/-- Why the node was pruned, if it was. -/
def pruneReason? (node : SearchNode α k) : Option (PruneReason α) :=
  match node.fate with
  | .pruned reason => some reason
  | _ => none

/-- The point of the node became the incumbent. -/
def isIntegral (node : SearchNode α k) : Bool :=
  match node.fate with
  | .integral => true
  | _ => false

/-- The variable the node branched on and its value, if it branched. -/
def branching? (node : SearchNode α k) : Option (Fin k × α) :=
  match node.fate with
  | .branched variableIndex value => some (variableIndex, value)
  | _ => none

end SearchNode

namespace SearchTree

/-- The first node of the search. -/
def root? (tree : SearchTree α k) : Option (SearchNode α k) := tree.nodes[0]?

/-- The node with a given number. -/
def node? (tree : SearchTree α k) (id : Nat) : Option (SearchNode α k) :=
  tree.nodes.find? fun node => node.id == id

/-- The solved children of a node in the order of their numbers. -/
def children (tree : SearchTree α k) (id : Nat) : List (SearchNode α k) :=
  (tree.nodes.toList.filter fun node => node.parent == some id).mergeSort
    fun left right => left.id ≤ right.id

end SearchTree

end LinearProgramming
