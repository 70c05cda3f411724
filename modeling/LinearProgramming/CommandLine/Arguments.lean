/-
This file reads the arguments of the command line.

Arguments are files, flags and settings with a value. A value is attached with an equals sign or
follows as the next argument, and it starts with a hyphen only when it is attached. Short flags
can share one hyphen. What does not fit is refused as a whole, with the first request for help
taking precedence over everything after it.
-/

import LinearProgramming.CommandLine.Assignment

namespace LinearProgramming.CommandLine

/-! ### What is asked for -/

/-- The analysis that is asked for, with its settings. -/
inductive Command where
  | solve (steps bland : Bool) (maxIterations : Nat)
  | branch (maxNodes : Option Nat)
  | revised (steps : Bool)
  | sensitivity (rhs objective : List (Nat × Float))

/-- A command on a problem file, and whether the result is to be written as a JSON document. -/
structure Invocation where
  file : String
  json : Bool
  command : Command

/-- Why there is nothing to run: the arguments are wrong, or help is asked for. -/
inductive Refusal where
  | usage
  | help
  deriving DecidableEq, Repr

/-! ### Flags and settings -/

/-- A flag or a setting that a command knows. -/
structure Declaration where
  name : String
  letter : Option Char
  takesValue : Bool
  repeatable : Bool

/-- One argument that was understood. -/
inductive Argument where
  | file (path : String)
  | given (declaration : Declaration) (value : String)

/-- Help, which every command offers. -/
def helpFlag : Declaration := ⟨"help", some 'h', false, true⟩

/-- More messages about the course of a run. -/
def verboseFlag : Declaration := ⟨"verbose", some 'v', false, true⟩

/-- The form of the output. -/
def formatSetting : Declaration := ⟨"format", some 'f', true, false⟩

/-- A setting with a long name only. -/
def setting (name : String) (repeatable : Bool) : Declaration := ⟨name, none, true, repeatable⟩

/-- A flag with a long name only. -/
def flag (name : String) : Declaration := ⟨name, none, false, false⟩

/-- An argument that starts with a hyphen and is more than one. -/
def isHyphenated (argument : String) : Bool :=
  argument.startsWith "-" && argument.length != 1

/-- The flags and settings of a group of short ones, and the setting that still needs a value. A
setting takes the rest of the group as its value, without an equals sign in front. -/
def readLetters (declared : List Declaration) :
    List Char → Except Refusal (List Argument × Option Declaration)
  | [] => .ok ([], none)
  | letter :: rest =>
    match declared.find? fun declaration => declaration.letter == some letter with
    | none => .error .usage
    | some declaration =>
      if declaration.takesValue then
        match rest with
        | [] => .ok ([], some declaration)
        | '=' :: value => .ok ([.given declaration (String.ofList value)], none)
        | value => .ok ([.given declaration (String.ofList value)], none)
      else if declaration.name == helpFlag.name then .error .help
      else do
        let (others, open?) ← readLetters declared rest
        return (.given declaration "" :: others, open?)

/-- A long flag or setting without its hyphens, and the setting that still needs a value. -/
def readLong (declared : List Declaration) (characters : List Char) :
    Except Refusal (List Argument × Option Declaration) :=
  let (name, attached) := characters.span (· != '=')
  match declared.find? fun declaration => declaration.name == String.ofList name with
  | none => .error .usage
  | some declaration =>
    match declaration.takesValue, attached with
    | true, _ :: value => .ok ([.given declaration (String.ofList value)], none)
    | true, [] => .ok ([], some declaration)
    | false, _ :: _ => .error .usage
    | false, [] =>
      if declaration.name == helpFlag.name then .error .help
      else .ok ([.given declaration ""], none)

/-- One hyphenated argument. -/
def readHyphenated (declared : List Declaration) (argument : String) :
    Except Refusal (List Argument × Option Declaration) :=
  match argument.toList with
  | '-' :: '-' :: long => readLong declared long
  | _ :: letters => readLetters declared letters
  | [] => .error .usage

/-- A value that does not fit its setting. -/
def valueFits (declaration : Declaration) (value : String) : Bool :=
  match declaration.name with
  | "format" => value == "pretty" || value == "json"
  | "max-iterations" | "max-nodes" => (Numeral.word? value.toList).isSome
  | "rhs" | "objective" => (assignment? value).isSome
  | _ => true

/-- An argument is acceptable after others: its value fits, a file path is not empty and the only
one, and what is not repeatable is not repeated. -/
def isAcceptable (earlier : List Argument) : Argument → Bool
  | .file path => !path.isEmpty && earlier.all fun argument =>
      match argument with
      | .file _ => false
      | .given _ _ => true
  | .given declaration value =>
    valueFits declaration value &&
      (declaration.repeatable || earlier.all fun argument =>
        match argument with
        | .file _ => true
        | .given other _ => other.name != declaration.name)

/-- Further arguments at the end of those understood so far, if each of them is acceptable. -/
def accept (earlier : List Argument) : List Argument → Except Refusal (List Argument)
  | [] => .ok earlier
  | argument :: rest =>
    if isAcceptable earlier argument then accept (earlier ++ [argument]) rest
    else .error .usage

/-- All arguments in order, after a setting that still needs its value, if there is one. After
two hyphens everything is a file. -/
def scan (declared : List Declaration) (earlier : List Argument) (open? : Option Declaration) :
    List String → Except Refusal (List Argument)
  | [] => if open?.isSome then .error .usage else .ok earlier
  | argument :: rest =>
    match open? with
    | some declaration =>
      if isHyphenated argument then .error .usage
      else do
        let understood ← accept earlier [.given declaration argument]
        scan declared understood none rest
    | none =>
      if argument == "--" then accept earlier (rest.map .file)
      else if isHyphenated argument then do
        let (found, open?) ← readHyphenated declared argument
        let understood ← accept earlier found
        scan declared understood open? rest
      else do
        let understood ← accept earlier [.file argument]
        scan declared understood none rest

/-! ### Reading the settings -/

/-- The file among the arguments. -/
def fileOf? (arguments : List Argument) : Option String :=
  arguments.findSome? fun argument =>
    match argument with
    | .file path => some path
    | .given _ _ => none

/-- The values of a setting in order. -/
def valuesOf (name : String) (arguments : List Argument) : List String :=
  arguments.filterMap fun argument =>
    match argument with
    | .file _ => none
    | .given declaration value => if declaration.name == name then some value else none

/-- A flag was given. -/
def isGiven (name : String) (arguments : List Argument) : Bool :=
  !(valuesOf name arguments).isEmpty

/-- The number a setting was given. -/
def numberOf? (name : String) (arguments : List Argument) : Option Nat :=
  (valuesOf name arguments).head?.bind fun value => Numeral.word? value.toList

/-- The assignments a setting was given. -/
def assignmentsOf (name : String) (arguments : List Argument) : List (Nat × Float) :=
  (valuesOf name arguments).filterMap assignment?

/-- The cap on pivots where none is given. -/
def defaultMaxIterations : Nat := 100

/-- The flags and settings of a command besides those of every command, and how the command is
made from them. -/
def command? : String → Option (List Declaration × (List Argument → Command))
  | "solve" =>
    some ([flag "steps", flag "bland", setting "max-iterations" false], fun arguments =>
      .solve (isGiven "steps" arguments) (isGiven "bland" arguments)
        ((numberOf? "max-iterations" arguments).getD defaultMaxIterations))
  | "branch" =>
    some ([setting "max-nodes" false], fun arguments =>
      .branch (numberOf? "max-nodes" arguments))
  | "revised" =>
    some ([flag "steps"], fun arguments => .revised (isGiven "steps" arguments))
  | "sensitivity" =>
    some ([setting "rhs" true, setting "objective" true], fun arguments =>
      .sensitivity (assignmentsOf "rhs" arguments) (assignmentsOf "objective" arguments))
  | _ => none

/-- The arguments after the name of a command. -/
def readCommand (declared : List Declaration) (make : List Argument → Command)
    (arguments : List String) : Except Refusal Invocation := do
  let understood ←
    scan (helpFlag :: verboseFlag :: formatSetting :: declared) [] none arguments
  match fileOf? understood with
  | some file =>
    return ⟨file, (valuesOf "format" understood).contains "json", make understood⟩
  | none => .error .usage

/-- The request for help by a word, which may name a command. -/
def readHelp : List String → Refusal
  | [] => .help
  | [name] => if (command? name).isSome || name == "help" then .help else .usage
  | _ => .usage

/-- All arguments of the command line. Only requests for more messages or for help can stand
before the name of the command. -/
def readArguments (arguments : List String) : Except Refusal Invocation := do
  let (leading, rest) := arguments.span isHyphenated
  let _ ← scan [helpFlag, verboseFlag] [] none leading
  if leading.contains "--" then .error .usage
  else
    match rest with
    | [] => .error .usage
    | "help" :: names => .error (readHelp names)
    | name :: rest =>
      match command? name with
      | some (declared, make) => readCommand declared make rest
      | none => .error .usage

end LinearProgramming.CommandLine
