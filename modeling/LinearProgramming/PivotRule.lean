/-
This file holds the two rules by which a tableau run chooses its pivots.

The steepest rule takes the most negative entry of the objective row and the first row with the
least ratio; it may cycle. The cautious rule takes the first negative entry, and of rows with
equal ratios the one whose basic column comes first.
-/

import LinearProgramming.BigM

namespace LinearProgramming

/-- How the entering column and the leaving row are chosen. -/
inductive PivotRule where
  | dantzig
  | bland
  deriving DecidableEq, Repr

namespace PivotRule

variable {α : Type} [Scalar α] {m n : Nat}

/-- The column that enters the basis, chosen by the entries of the objective row. There is none
when no entry is negative. -/
def entering (rule : PivotRule) (tolerance : α) (objectiveRow : Vector (BigM α) n) :
    Option (Fin n) :=
  match rule with
  | dantzig =>
    (BigM.leastNegative tolerance ((List.finRange n).map fun j => (j, objectiveRow.get j))).map
      Prod.fst
  | bland => (List.finRange n).find? fun j =>
    (objectiveRow.get j).isNegativeWithin tolerance

/-- Whether a row with a ratio is preferred to the row found so far. A ratio that is smaller by
more than the tolerance always is. Of ratios equal up to the tolerance the cautious rule takes
the row whose basic column comes first, and the steepest rule takes a ratio that is smaller at
all. -/
def prefers (rule : PivotRule) (tolerance : α) (basis : Vector (Fin n) m) (row : Fin m)
    (ratio : α) : Option (Fin m × α) → Bool
  | none => true
  | some (found, least) =>
    if ratio < least - tolerance then true
    else
      match rule with
      | dantzig => ratio < least
      | bland => Scalar.abs (ratio - least) ≤ tolerance && basis.get row < basis.get found

/-- The row that leaves the basis, chosen by the ratios of the rows that have one. -/
def leaving (rule : PivotRule) (tolerance : α) (basis : Vector (Fin n) m)
    (ratios : Vector (Option α) m) : Option (Fin m) :=
  ((List.finRange m).foldl (fun found row =>
    match ratios.get row with
    | none => found
    | some ratio =>
      if rule.prefers tolerance basis row ratio found then some (row, ratio) else found)
    none).map Prod.fst

end PivotRule

end LinearProgramming
