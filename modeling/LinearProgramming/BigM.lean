/-
This file holds numbers with a symbolic penalty: `value + penalty * M` for an `M` that is larger
than every number.

Such numbers are the costs of the two simplex methods. They are added and scaled part by part
and compared by their penalties first, so no particular large number has to be chosen. All
comparisons take a tolerance, within which two parts count as equal.
-/

import LinearProgramming.Scalar

namespace LinearProgramming

/-- The number `value + penalty * M`. -/
structure BigM (α : Type) where
  value : α
  penalty : α
  deriving BEq, DecidableEq

namespace BigM

variable {α : Type} [Scalar α]

/-! ### Arithmetic -/

/-- A number without penalty. -/
def ofScalar (value : α) : BigM α := ⟨value, 0⟩

/-- The penalty itself. -/
def penaltyUnit : BigM α := ⟨0, 1⟩

instance : Zero (BigM α) := ⟨⟨0, 0⟩⟩

instance : Add (BigM α) := ⟨fun left right =>
  ⟨left.value + right.value, left.penalty + right.penalty⟩⟩

instance : Sub (BigM α) := ⟨fun left right =>
  ⟨left.value - right.value, left.penalty - right.penalty⟩⟩

instance : Neg (BigM α) := ⟨fun number => ⟨-number.value, -number.penalty⟩⟩

/-- Both parts times a factor. -/
def scale (number : BigM α) (factor : α) : BigM α :=
  ⟨number.value * factor, number.penalty * factor⟩

/-- Both parts divided by a divisor. -/
def divide (number : BigM α) (divisor : α) : BigM α :=
  ⟨number.value / divisor, number.penalty / divisor⟩

/-- The sum of costs times levels, taken from left to right. The longer list is cut. -/
def dot (costs : List (BigM α)) (levels : List α) : BigM α :=
  (List.zipWith scale costs levels).foldl (· + ·) 0

/-! ### Signs and order -/

/-- There is no penalty. -/
def isReal (number : BigM α) : Bool := Scalar.abs number.penalty ≤ Scalar.epsilon

/-- Both parts are zero up to a tolerance. -/
def isZeroWithin (tolerance : α) (number : BigM α) : Bool :=
  Scalar.abs number.penalty ≤ tolerance && Scalar.abs number.value ≤ tolerance

/-- Both parts are zero up to the default tolerance. -/
def isZero (number : BigM α) : Bool := number.isZeroWithin Scalar.epsilon

/-- Below zero by more than a tolerance: in the penalty, or in the value where there is no
penalty. -/
def isNegativeWithin (tolerance : α) (number : BigM α) : Bool :=
  if Scalar.abs number.penalty ≤ tolerance then number.value < -tolerance
  else number.penalty < -tolerance

/-- Below zero by more than the default tolerance. -/
def isNegative (number : BigM α) : Bool := number.isNegativeWithin Scalar.epsilon

/-- Smaller by penalty, or by value where the penalties are equal up to a tolerance. The values
have to differ by more than the tolerance. -/
def lessWithin (tolerance : α) (left right : BigM α) : Bool :=
  if tolerance < Scalar.abs (left.penalty - right.penalty) then left.penalty < right.penalty
  else left.value < right.value - tolerance

/-- Smaller with respect to the default tolerance. -/
def less (left right : BigM α) : Bool := lessWithin Scalar.epsilon left right

/-- The order of two numbers; where neither is smaller they count as equal. -/
def compare (left right : BigM α) : Ordering :=
  if left.less right then .lt else if right.less left then .gt else .eq

/-! ### The least of a row -/

/-- The entry that a scan from left to right ends with when it moves on to every entry smaller
than the one it holds, starting from zero. It is the entry a simplex method lets enter. -/
def leastNegative {ι : Type} (tolerance : α) (entries : List (ι × BigM α)) :
    Option (ι × BigM α) :=
  entries.foldl (fun found entry =>
    if entry.2.lessWithin tolerance ((found.map Prod.snd).getD 0) then some entry else found) none

end BigM

end LinearProgramming
