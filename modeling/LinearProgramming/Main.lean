/-
This file is the command line program: it reads the arguments and the problem file, and writes
what the command answers.
-/

import LinearProgramming.CommandLine

namespace LinearProgramming.CommandLine

/-- The number by which the system reports a failure. Some layers hand it on with its sign changed,
as a word that wraps around. -/
def systemNumber (code : UInt32) : Nat :=
  if 0x80000000 ≤ code then (0 - code).toNat else code.toNat

/-- The failure behind an error of the input system. -/
def readFailure (error : IO.Error) : ReadFailure :=
  let number? : Option UInt32 := match error with
    | .noFileOrDirectory _ code _ | .permissionDenied _ code _ | .inappropriateType _ code _
    | .invalidArgument _ code _ | .noSuchThing _ code _ | .resourceExhausted _ code _
    | .alreadyExists _ code _ | .interrupted _ code _ => some code
    | .otherError code _ | .resourceBusy code _ | .resourceVanished code _
    | .unsupportedOperation code _ | .hardwareFault code _ | .unsatisfiedConstraints code _
    | .illegalOperation code _ | .protocolError code _ | .timeExpired code _ => some code
    | .unexpectedEof | .userError _ => none
  (number?.bind fun code => ReadFailure.ofNumber? (systemNumber code)).getD
    (.other (toString error))

/-- The content of a file, or the reason for which it cannot be had. -/
def readContent (path : String) : IO (Except ReadFailure ByteArray) := do
  try
    return .ok (← IO.FS.readBinFile path)
  catch error => return .error (readFailure error)

/-- Writes the result of a command and returns its exit code. -/
def writeResult (result : Except CommandError Result) : IO UInt32 := do
  match result with
  | .ok ⟨.text characters, _⟩ => IO.print characters
  | .ok ⟨.document value, _⟩ => IO.println (value.pretty 0)
  | .error error => IO.eprintln ("Error: " ++ error.message)
  return (exitCode result).toUInt32

/-- Runs the command that the arguments name. -/
def execute (arguments : List String) : IO UInt32 := do
  match readArguments arguments with
  | .ok invocation => writeResult (invocation.run (← readContent invocation.file))
  | .error .help =>
    IO.print usage
    return 0
  | .error .usage =>
    IO.eprint usage
    return usageExitCode.toUInt32

end LinearProgramming.CommandLine

def main (arguments : List String) : IO UInt32 :=
  LinearProgramming.CommandLine.execute arguments
