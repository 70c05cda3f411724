/-
This file adds two infinities to the scalars, for the ends of intervals and for objectives that
have no bound.

The ends of an interval are narrowed by candidates. A candidate that is not comparable with
itself, the result of an undefined operation, narrows nothing.
-/

import LinearProgramming.Scalar

namespace LinearProgramming

/-- A scalar or one of two infinities around all scalars. -/
inductive Extended (α : Type) where
  | negInf
  | finite (number : α)
  | posInf
  deriving DecidableEq, Repr

namespace Extended

variable {α : Type} [Scalar α]

/-- The negative of an extended number. -/
def negate : Extended α → Extended α
  | negInf => posInf
  | finite number => finite (-number)
  | posInf => negInf

/-- An extended number moved by a scalar. -/
def shift (offset : α) : Extended α → Extended α
  | negInf => negInf
  | finite number => finite (offset + number)
  | posInf => posInf

/-- The larger of a lower end and a candidate. -/
def raiseTo (candidate : α) : Extended α → Extended α
  | negInf => if candidate ≤ candidate then finite candidate else negInf
  | finite number => if number < candidate then finite candidate else finite number
  | posInf => posInf

/-- The smaller of an upper end and a candidate. -/
def lowerTo (candidate : α) : Extended α → Extended α
  | negInf => negInf
  | finite number => if candidate < number then finite candidate else finite number
  | posInf => if candidate ≤ candidate then finite candidate else posInf

/-- A scalar is at least an extended number less a margin. Only a scalar that is itself infinite
reaches the upper infinity. -/
def isReachedBy (margin number : α) : Extended α → Bool
  | negInf => true
  | finite bound => bound - margin ≤ number
  | posInf => Scalar.isInfinite number && (0 : α) < number

/-- A scalar is at most an extended number plus a margin. Only a scalar that is itself infinite
is as low as the lower infinity. -/
def isReachedDownBy (margin number : α) : Extended α → Bool
  | negInf => Scalar.isInfinite number && number < (0 : α)
  | finite bound => number ≤ bound + margin
  | posInf => true

end Extended

end LinearProgramming
