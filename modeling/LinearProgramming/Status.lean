/-
This file names the four ways in which a run of a simplex method can end.
-/

namespace LinearProgramming

/-- How a run ended. -/
inductive Status where
  | optimal
  | infeasible
  | unbounded
  | notConverged
  deriving DecidableEq, Repr

namespace Status

/-- The status as a sentence for a reader. -/
def text : Status → String
  | optimal => "Optimal Solution Found"
  | infeasible => "Infeasible Solution"
  | unbounded => "Unbounded Solution"
  | notConverged => "Max iterations reached"

/-- The status as one word. -/
def word : Status → String
  | optimal => "Optimal"
  | infeasible => "Infeasible"
  | unbounded => "Unbounded"
  | notConverged => "NotConverged"

end Status

end LinearProgramming
