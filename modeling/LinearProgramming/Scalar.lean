/-
This file fixes what the solvers ask of the numbers they compute with.

Every engine of the library is written once, over an arbitrary `Scalar`. Two instances matter:
binary floating point, in which programs are run, and the exact rationals, over which the
engines are theorems about linear programs. The class holds operations and no laws, so a
statement proved for every `Scalar` holds whatever the operations return.
-/

namespace LinearProgramming

/-- The numbers a solver computes with: arithmetic, comparisons, rounding to whole numbers and
decimal text. No law is assumed of any of them. -/
class Scalar (α : Type) extends Zero α, One α, Add α, Sub α, Neg α, Mul α, Div α, LT α, LE α,
    BEq α, OfScientific α where
  decidableLT : DecidableLT α
  decidableLE : DecidableLE α
  /-- The distance from zero. -/
  abs : α → α
  /-- The greatest whole number that is not above. -/
  floor : α → α
  /-- The least whole number that is not below. -/
  ceil : α → α
  /-- The nearest whole number, a half going away from zero. -/
  round : α → α
  /-- Neither an infinity nor the result of an undefined operation. -/
  isFinite : α → Bool
  /-- One of the two infinities, where the scalars have them. -/
  isInfinite : α → Bool
  /-- The digits of a whole number, with a minus sign in front of a negative one. -/
  wholeText : α → String
  /-- Decimal text with a given number of digits after the point. The exact value is rounded, a
  half going to the even neighbour, and the sign stays also when every digit is zero. -/
  fixedText : Nat → α → String

namespace Scalar

variable {α : Type} [Scalar α]

instance : DecidableLT α := Scalar.decidableLT

instance : DecidableLE α := Scalar.decidableLE

/-- The distance below which two numbers count as equal where no tolerance is asked for. -/
def epsilon : α := 1e-9

/-- The sum of a list, taken from left to right. It starts from the negative of zero: where zeros
have signs this is the neutral number of addition, so a sum of negative zeros keeps its sign. -/
def sum (terms : List α) : α := terms.foldl (· + ·) (-0)

/-- The sum of the products of corresponding entries. The longer list is cut. -/
def dot (left right : List α) : α := sum (List.zipWith (· * ·) left right)

end Scalar

end LinearProgramming
