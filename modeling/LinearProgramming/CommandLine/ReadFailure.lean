/-
This file names the reasons for which the content of a problem file cannot be had.

The system reports a failure by a number, and the sentence for the failure repeats that number. A
file that is read but does not hold text fails as well.
-/

namespace LinearProgramming.CommandLine

/-- Why the content of a file cannot be had. -/
inductive ReadFailure where
  | missing
  | broken
  | noDevice
  | notPermitted
  | notDirectory
  | isDirectory
  | nameTooLong
  | tooManyLinks
  | notText
  | other (description : String)
  deriving DecidableEq, Repr

namespace ReadFailure

/-- The failure the system reports by a number. -/
def ofNumber? : Nat → Option ReadFailure
  | 2 => some missing
  | 5 => some broken
  | 6 => some noDevice
  | 13 => some notPermitted
  | 20 => some notDirectory
  | 21 => some isDirectory
  | 36 => some nameTooLong
  | 40 => some tooManyLinks
  | _ => none

/-- The reason as a sentence. -/
def message : ReadFailure → String
  | missing => "No such file or directory (os error 2)"
  | broken => "Input/output error (os error 5)"
  | noDevice => "No such device or address (os error 6)"
  | notPermitted => "Permission denied (os error 13)"
  | notDirectory => "Not a directory (os error 20)"
  | isDirectory => "Is a directory (os error 21)"
  | nameTooLong => "File name too long (os error 36)"
  | tooManyLinks => "Too many levels of symbolic links (os error 40)"
  | notText => "stream did not contain valid UTF-8"
  | other description => description

end ReadFailure

end LinearProgramming.CommandLine
