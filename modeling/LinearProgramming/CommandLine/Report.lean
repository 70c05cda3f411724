/-
This file writes the results of the commands as plain text.

Numbers are rounded to four places, tables are aligned to the right, and every width counts
characters.
-/

import LinearProgramming.BranchAndBound
import LinearProgramming.Revised
import LinearProgramming.Scalar.Binary64
import LinearProgramming.Sensitivity.WhatIf

namespace LinearProgramming.CommandLine

/-! ### Numbers and tables -/

/-- A number in at most four decimal places. A zero has no sign, and an undefined number is a
hyphen. -/
def number (value : Float) : String :=
  if value.isInf then (if 0 < value then "∞" else "-∞")
  else if value.isNaN then "-"
  else
    let text := Numeral.trimmed (Scalar.fixedText 4 value)
    if text == "-0" then "0" else text

/-- A number or one of the two infinities. -/
def extended : Extended Float → String
  | .negInf => "-∞"
  | .finite value => number value
  | .posInf => "∞"

/-- Numbers separated by commas in square brackets. -/
def numbers (values : List Float) : String :=
  "[" ++ String.intercalate ", " (values.map number) ++ "]"

/-- As many spaces as a text is shorter than a width. -/
def filling (width : Nat) (text : String) : String :=
  String.ofList (List.replicate (width - text.length) ' ')

/-- A text filled up on the left. -/
def alignRight (width : Nat) (text : String) : String := filling width text ++ text

/-- A text filled up on the right. -/
def alignLeft (width : Nat) (text : String) : String := text ++ filling width text

/-- The width of a column of a table: that of its longest cell. -/
def columnWidth (rows : List (List String)) (column : Nat) : Nat :=
  rows.foldl (fun width row => max width ((row[column]?.map String.length).getD 0)) 0

/-- Lines of text, each with its line feed. -/
def lines (texts : List String) : String := String.join (texts.map (· ++ "\n"))

/-- A table with its columns aligned to the right. -/
def table (rows : List (List String)) : String :=
  let columns := rows.foldl (fun count row => max count row.length) 0
  let widths := (List.range columns).map (columnWidth rows)
  lines (rows.map fun row => "  " ++ String.intercalate "  "
    (List.zipWith (fun cell width => alignRight width cell) row widths))

/-- The values of named variables, one on each line. -/
def valueLines (problem : Problem Float) (values : List Float) : List String :=
  List.zipWith (fun name value => "  " ++ alignLeft 12 name ++ " " ++ alignRight 12 (number value))
    problem.variableNames values

/-! ### Solutions -/

/-- A step of a tableau run: its title, the row operations, the tableau, and the pivot with the
ratios that decided on it. -/
def stepText {m n : Nat} (names : Vector String n) (step : Step Float m n) : String :=
  let headers := step.tableau.rowHeaders names
  let header := "Basis" :: Tableau.columnHeaders names
  let rows := List.zipWith (fun name row => name :: row.map BigM.text) headers
    step.tableau.cells.toLists
  let pivot := match step.pivot with
    | some pivot =>
      [s!"  Pivot: row {pivot.row.val + 1} (" ++ names.get (step.tableau.basis.get pivot.row) ++
        "), column " ++ names.get pivot.column]
    | none => []
  let ratios := match step.ratios with
    | some ratios =>
      ["  Ratios: " ++ String.intercalate ", "
        (ratios.toList.map fun ratio => (ratio.map number).getD "-")]
    | none => []
  lines (step.description names :: step.operations.map fun operation => "    " ++ operation.text) ++
    table (header :: rows) ++ lines (pivot ++ ratios)

/-- The objective of an outcome and the values of the variables, if there are any. -/
def optimumLines (problem : Problem Float) : Outcome Float → List String
  | .optimal values objective => ("Z = " ++ number objective) :: valueLines problem values
  | .infeasible | .unbounded _ | .notConverged => []

/-- The result of a tableau run, with all its steps if they are asked for. -/
def solutionText (problem : Problem Float) (solution : Solution Float) (withSteps : Bool) :
    String :=
  lines (problem.objectiveFormula :: problem.constraints.map fun row =>
      "  " ++ row.name ++ ": " ++ row.formula problem.variableNames) ++
    "\n" ++
    (if withSteps then
      lines (solution.steps.map (stepText solution.form.names))
    else "") ++
    lines (["Status: " ++ solution.status.text, s!"Iterations: {solution.iterations}"] ++
      optimumLines problem solution.outcome)

/-! ### Searches -/

/-- The fate of a node in words. -/
def fateText (problem : Problem Float) : NodeFate Float problem.numVars → String
  | .pruned reason => "pruned: " ++ reason.text
  | .integral => "integer solution"
  | .branched variableIndex value =>
    "branch on " ++ problem.variableName variableIndex ++ " = " ++ number value

/-- A node of a search on one line, indented by its depth. -/
def nodeLine (problem : Problem Float) (node : SearchNode Float problem.numVars) : String :=
  let bound := match node.added with
    | some constraint => constraint.name
    | none => "root"
  let objective := match node.relaxation.outcome with
    | .optimal _ objective => "Z = " ++ number objective
    | outcome => outcome.status.text
  String.join (List.replicate node.depth "  ") ++ s!"#{node.id} [" ++ bound ++ "] " ++ objective ++
    "  " ++ fateText problem node.fate

/-- The result of a search: its nodes and the best integral point. -/
def searchText (problem : Problem Float) (tree : SearchTree Float problem.numVars) : String :=
  let limit := if tree.limitReached then ["Node limit reached, the search is incomplete"] else []
  let best := match tree.best with
    | some best =>
      (s!"Best integer solution (node {best.node}): Z = " ++ number best.objective) ::
        valueLines problem best.values
    | none => ["No integer solution found"]
  lines ([problem.objectiveFormula, ""] ++ tree.nodes.toList.map (nodeLine problem) ++ [""] ++
    limit ++ best)

/-! ### Revised runs -/

/-- An iteration of the revised method with its matrices. -/
def iterationLines {m n : Nat} (names : Vector String n) (step : RevisedStep Float m n) :
    List String :=
  let basis := step.basis.toList.map names.get
  let reduced := step.reducedCosts.map fun (column, cost) => names.get column ++ ": " ++ cost.text
  let exchange := match step.decision with
    | .exchange _ _ direction _ _ theta =>
      ["  d = " ++ numbers direction.toList, "  θ = " ++ number theta]
    | _ => []
  [step.description names, "  Basis: [" ++ String.intercalate ", " basis ++ "]", "  B⁻¹ ="] ++
    step.inverse.toLists.map (fun row => "    " ++ numbers row) ++
    ["  xB = " ++ numbers step.levels.toList,
      "  C_B = [" ++ String.intercalate ", " (step.basicCosts.toList.map BigM.text) ++ "]",
      "  Reduced costs: " ++ String.intercalate ", " reduced] ++ exchange ++ [""]

/-- The result of a run of the revised method, with all its iterations if they are asked for. -/
def revisedText (problem : Problem Float) (solution : RevisedSolution Float) (withSteps : Bool) :
    String :=
  lines ([problem.objectiveFormula, ""] ++
    (if withSteps then solution.steps.flatMap (iterationLines solution.names) else []) ++
    ("Status: " ++ solution.status.text) :: optimumLines problem solution.outcome)

/-! ### Sensitivity -/

/-- The answer to a what-if question. -/
def changeLines (answer : WhatIfAnswer Float) : List String :=
  answer.steps.map Remark.text ++
    (match answer.optimum with
      | .preserved objective values =>
        ("Z = " ++ number objective) :: valueLines answer.problem values
      | .resolved solution =>
        ("Status: " ++ solution.status.text) :: optimumLines answer.problem solution.outcome) ++
    [""]

/-- A title with a table below it. -/
def titledTable (title : String) (rows : List (List String)) : String :=
  title ++ ":\n" ++ table rows ++ "\n"

/-- The report on an optimum and the answers to what-if questions about it. -/
def sensitivityText (analysis : Sensitivity Float) (answers : List (WhatIfAnswer Float)) :
    String :=
  let problem := analysis.problem
  lines ([problem.objectiveFormula, "Z = " ++ number analysis.objectiveValue] ++
      valueLines problem analysis.values ++ [""]) ++
    titledTable "Shadow prices" (["Constraint", "Shadow price"] ::
      analysis.shadowPrices.map fun price => [price.name, number price.value]) ++
    titledTable "Objective coefficient ranges"
      (["Variable", "Basic", "Lower", "Current", "Upper"] ::
        analysis.objectiveRanges.map fun range =>
          [range.name, if range.basic then "yes" else "no", extended range.lower,
            number range.current, extended range.upper]) ++
    titledTable "Right-hand side ranges" (["Constraint", "Lower", "Current", "Upper"] ::
      analysis.rhsRanges.map fun range =>
        [range.name, extended range.lower, number range.current, extended range.upper]) ++
    lines (answers.flatMap changeLines)

end LinearProgramming.CommandLine
