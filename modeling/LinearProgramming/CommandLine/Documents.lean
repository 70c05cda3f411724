/-
This file writes the results of the commands as JSON documents.

A quantity that is not finite is written as null. Rows and columns of a tableau are counted from
zero, with the objective in row zero and the right-hand sides in the last column.
-/

import LinearProgramming.BranchAndBound
import LinearProgramming.Json.Document
import LinearProgramming.Revised
import LinearProgramming.Scalar.Binary64
import LinearProgramming.Sensitivity.WhatIf

namespace LinearProgramming.CommandLine

open Document (orNull sorted)

/-! ### Numbers, lists and matrices -/

/-- A quantity, or null where it is not finite. -/
def quantity (value : Float) : Document := if value.isFinite then .quantity value else .null

/-- An extended number, of which only the finite ones are written. -/
def extendedDocument : Extended Float → Document
  | .finite value => quantity value
  | .negInf | .posInf => .null

/-- An objective, null where it has no finite value. -/
def objectiveDocument (objective : Option (Extended Float)) : Document :=
  orNull (objective.map extendedDocument)

/-- A list of quantities. -/
def quantities (values : List Float) : Document := .list (values.map quantity)

/-- A list of texts. -/
def texts (values : List String) : Document := .list (values.map .text)

/-- A list of indices. -/
def indices {n : Nat} (values : List (Fin n)) : Document :=
  .list (values.map fun (i : Fin n) => .count i)

/-- An index, or null where there is none. -/
def index {n : Nat} (value : Option (Fin n)) : Document :=
  orNull (value.map fun (i : Fin n) => .count i)

/-- A number with a penalty. -/
def bigM (number : BigM Float) : Document :=
  .record [("value", quantity number.value), ("penalty", quantity number.penalty)]

/-- A matrix with its shape and its entries row by row. -/
def matrix {β : Type} {m n : Nat} (entry : β → Document) (entries : DenseMatrix β m n) :
    Document :=
  .record [("rows", .count m), ("cols", .count n),
    ("data", .list (entries.toLists.flatten.map entry))]

/-- Ratios, null in the rows that have none. -/
def ratios {m : Nat} (values : Vector (Option Float) m) : Document :=
  .list (values.toList.map fun ratio => orNull (ratio.map quantity))

/-! ### Problems -/

/-- The spelling of a relation. -/
def relationText : Relation → String
  | .atMost => "<="
  | .atLeast => ">="
  | .equal => "="

/-- A constraint. -/
def constraint (row : Constraint Float) : Document :=
  .record [("name", .text row.name), ("coefficients", quantities row.coefficients),
    ("op", .text (relationText row.relation)), ("rhs", quantity row.rhs)]

/-- A truth value that says whether the sense is to minimize. -/
def isMinimize (sense : Sense) : Document := .boolean (sense == .minimize)

/-- A problem. -/
def problemDocument (problem : Problem Float) : Document :=
  .record [("variables", texts problem.variableNames),
    ("objective", .record [("coefficients", quantities problem.objective),
      ("minimize", isMinimize problem.sense)]),
    ("constraints", .list (problem.constraints.map constraint))]

/-! ### Solutions -/

/-- A step of a tableau run. -/
def stepDocument {m n : Nat} (names : Vector String n) (step : Step Float m n) : Document :=
  .record [("tableau", matrix bigM step.tableau.cells),
    ("row_headers", texts (step.tableau.rowHeaders names)),
    ("col_headers", texts (Tableau.columnHeaders names)),
    ("basic_vars", indices step.tableau.basis.toList),
    ("description", .text (step.description names)),
    ("pivot", orNull (step.pivot.map fun pivot =>
      .record [("row", .count pivot.row.succ), ("col", .count pivot.column)])),
    ("ratios", orNull (step.ratios.map ratios)),
    ("row_operations", texts (step.operations.map RowOperation.text))]

/-- The result of a tableau run with all its steps. -/
def solutionDocument (solution : Solution Float) : Document :=
  .record [("status", .text solution.status.word),
    ("values", quantities solution.outcome.values),
    ("objective_value", objectiveDocument solution.outcome.objectiveValue),
    ("steps", .list (solution.steps.map (stepDocument solution.form.names))),
    ("iterations", .count solution.iterations)]

/-! ### Searches -/

/-- Why a node was pruned. -/
def pruneReason : PruneReason Float → Document
  | .infeasible => .text "Infeasible"
  | .notSolved status => .record [("NotSolved", .text status.word)]
  | .bounded incumbent sense =>
    .record [("Bounded", .record [("incumbent", extendedDocument incumbent),
      ("minimize", isMinimize sense)])]

/-- A node of a search. -/
def nodeDocument {k : Nat} (node : SearchNode Float k) : Document :=
  .record [("id", .count node.id), ("parent_id", orNull (node.parent.map .count)),
    ("depth", .count node.depth), ("constraints", .list (node.constraints.map constraint)),
    ("added_constraint", orNull (node.added.map constraint)),
    ("relaxation", solutionDocument node.relaxation),
    ("prune_reason", orNull (node.pruneReason?.map pruneReason)),
    ("is_integer_solution", .boolean node.isIntegral),
    ("branch", orNull (node.branching?.map fun (variableIndex, value) =>
      .record [("variable", .count variableIndex), ("value", quantity value)]))]

/-- The result of a search. -/
def searchDocument {k : Nat} (tree : SearchTree Float k) : Document :=
  .record [("nodes", .list (tree.nodes.toList.map nodeDocument)),
    ("best", orNull (tree.best.map fun best =>
      .record [("node_id", .count best.node), ("objective_value", quantity best.objective),
        ("values", quantities best.values)])),
    ("node_limit_reached", .boolean tree.limitReached)]

/-! ### Revised runs -/

/-- An iteration of the revised method. -/
def iterationDocument {m n : Nat} (names : Vector String n) (step : RevisedStep Float m n) :
    Document :=
  let decision := step.decision
  let vector (values : Vector Float m) := quantities values.toList
  .record [("kind", .text decision.word), ("iteration", .count step.iteration),
    ("basis", indices step.basis.toList), ("b_inv", matrix quantity step.inverse),
    ("x_b", vector step.levels), ("c_b", .list (step.basicCosts.toList.map bigM)),
    ("reduced_costs", .list (step.reducedCosts.map fun (column, cost) =>
      .list [.count column, bigM cost])),
    ("entering", index decision.entering?), ("leaving", index decision.leaving?),
    ("direction", orNull (decision.direction?.map vector)),
    ("ratios", orNull (decision.ratios?.map ratios)),
    ("theta", orNull (decision.theta?.map quantity)), ("objective", bigM step.objective),
    ("description", .text (step.description names))]

/-- The result of a run of the revised method with all its iterations. -/
def revisedDocument (solution : RevisedSolution Float) : Document :=
  .record [("status", .text solution.status.word),
    ("objective_value", objectiveDocument solution.outcome.objectiveValue),
    ("values", quantities solution.outcome.values),
    ("basis", indices solution.finalStep.basis.toList),
    ("b_inv", matrix quantity solution.finalStep.inverse),
    ("names", texts solution.names.toList),
    ("steps", .list (solution.steps.map (iterationDocument solution.names))),
    ("iterations", .count solution.iterations)]

/-! ### Sensitivity -/

/-- A consideration of a what-if analysis. -/
def remark : Remark Float → Document
  | .info sentence => .record [("Info", .text sentence)]
  | .calculation sentence => .record [("Calculation", .text sentence)]
  | .matrix label table =>
    .record [("Matrix", .record [("label", .text label),
      ("matrix", matrix quantity table.entries)])]
  | .vector label values =>
    .record [("Vector", .record [("label", .text label), ("values", quantities values)])]
  | .verdict preserved message =>
    .record [("Verdict", .record [("message", .text message),
      ("preserved", .boolean preserved)])]

/-- The new optimum of a what-if analysis. -/
def newOptimum : NewOptimum Float → Document
  | .preserved objective values =>
    .record [("BasisPreserved", .record [("objective_value", quantity objective),
      ("values", quantities values)])]
  | .resolved solution => .record [("Resolved", solutionDocument solution)]

/-- The answer to a what-if question. -/
def changeDocument (answer : WhatIfAnswer Float) : Document :=
  .record [("outcome", newOptimum answer.optimum),
    ("problem", problemDocument answer.problem),
    ("steps", .list (answer.steps.map remark))]

/-- The report on an optimum and the answers to what-if questions about it, with all members in
alphabetical order. -/
def sensitivityDocument (analysis : Sensitivity Float) (answers : List (WhatIfAnswer Float)) :
    Document :=
  sorted <| .record [("changes", .list (answers.map changeDocument)),
    ("objective_ranges", .list (analysis.objectiveRanges.map fun range =>
      .record [("variable", .count range.variableIndex), ("name", .text range.name),
        ("basic", .boolean range.basic), ("current", quantity range.current),
        ("lower", extendedDocument range.lower), ("upper", extendedDocument range.upper)])),
    ("objective_value", quantity analysis.objectiveValue),
    ("rhs_ranges", .list (analysis.rhsRanges.map fun range =>
      .record [("constraint", .count range.row), ("name", .text range.name),
        ("current", quantity range.current), ("lower", extendedDocument range.lower),
        ("upper", extendedDocument range.upper)])),
    ("shadow_prices", .list (analysis.shadowPrices.map fun price =>
      .record [("constraint", .count price.row), ("name", .text price.name),
        ("value", quantity price.value)])),
    ("values", quantities analysis.values)]

end LinearProgramming.CommandLine
