/-
This file records the steps of a tableau run.

A step is a tableau with the reason why it was written down. When the run goes on from it, it is
marked with the pivot that was chosen there.
-/

import LinearProgramming.Tableau.Pivot

namespace LinearProgramming

/-- The choice of a pivot: its row and column, and the ratios that decided on the row. -/
structure Pivot (α : Type) (m n : Nat) where
  row : Fin m
  column : Fin n
  ratios : Vector (Option α) m

/-- Why a tableau was written down: it is the first, it came out of a pivot, or a column without
ratios shows that the objective has no bound. -/
inductive StepOrigin (α : Type) (m n : Nat) where
  | start (artificials : Bool)
  | pivoted (iteration : Nat) (leaving entering : Fin n) (operations : List (RowOperation α m))
  | unbounded (ratios : Vector (Option α) m)

/-- A tableau of a run, with its origin and the pivot that was chosen on it. -/
structure Step (α : Type) (m n : Nat) where
  tableau : Tableau α m n
  origin : StepOrigin α m n
  pivot : Option (Pivot α m n)

namespace Step

variable {α : Type} {m n : Nat}

/-- The origin of the step as a title. -/
def description (names : Vector String n) (step : Step α m n) : String :=
  match step.origin with
  | .start true => "Initial Tableau (Big M)"
  | .start false => "Initial Tableau"
  | .pivoted iteration leaving entering _ =>
    s!"Iteration {iteration}: Pivot (Leave " ++ names.get leaving ++ ", Enter " ++
      names.get entering ++ ")"
  | .unbounded _ => "Unbounded Solution Detected"

/-- The row operations that led to the tableau. -/
def operations (step : Step α m n) : List (RowOperation α m) :=
  match step.origin with
  | .pivoted _ _ _ operations => operations
  | _ => []

/-- The ratios that were looked at on the tableau. -/
def ratios (step : Step α m n) : Option (Vector (Option α) m) :=
  match step.pivot, step.origin with
  | some pivot, _ => some pivot.ratios
  | none, .unbounded ratios => some ratios
  | none, _ => none

end Step

end LinearProgramming
