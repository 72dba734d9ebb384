/-!
# What the system refuses

The ways in which a file, directory or process cannot be used, with the system's words for them.
-/

namespace PuzzleGate.Files

inductive Fault where
  | notFound
  | permissionDenied
  | notDirectory
  | isDirectory
  | brokenPipe
  | nameTooLong
  | tooManyLinks
  /-- The content is not UTF-8. -/
  | notText
  /-- A path contains a NUL character. -/
  | nulInPath
  /-- A word of a command contains a NUL character. -/
  | nulInCommand
deriving DecidableEq, Repr

def Fault.words : Fault → String
  | .notFound => "No such file or directory"
  | .permissionDenied => "Permission denied"
  | .notDirectory => "Not a directory"
  | .isDirectory => "Is a directory"
  | .brokenPipe => "Broken pipe"
  | .nameTooLong => "File name too long"
  | .tooManyLinks => "Too many levels of symbolic links"
  | .notText => "stream did not contain valid UTF-8"
  | .nulInPath => "file name contained an unexpected NUL byte"
  | .nulInCommand => "nul byte found in provided data"

/-- The system's number for a fault; what is refused before the system is asked has none. -/
def Fault.number? : Fault → Option Nat
  | .notFound => some 2
  | .permissionDenied => some 13
  | .notDirectory => some 20
  | .isDirectory => some 21
  | .brokenPipe => some 32
  | .nameTooLong => some 36
  | .tooManyLinks => some 40
  | .notText | .nulInPath | .nulInCommand => none

def Fault.message (fault : Fault) : String :=
  match fault.number? with
  | some number => s!"{fault.words} (os error {number})"
  | none => fault.words

end PuzzleGate.Files
