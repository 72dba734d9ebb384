import PuzzleGate.Path.Basic

/-!
# Requests

What can be asked of the program on its command line. Absent options leave the choice to the
configuration.
-/

namespace PuzzleGate.Cli

/-- The formats of the output. -/
inductive Format where
  | text
  | json
deriving DecidableEq, Repr

/-- To validate every document below the content root, or a single one. -/
structure ValidateRequest where
  path : Option Path := none
  root : Option Path := none
  allowList : Option Path := none
  format : Format := .text
deriving DecidableEq, Repr

/-- To list the elements of a document, which may be compiled already. -/
structure ElementsRequest where
  file : Path
  compiled : Bool := false
  format : Format := .text
deriving DecidableEq, Repr

/-- To list the allow-list, or to say which of the names are on it. -/
structure AllowListRequest where
  names : List String := []
  allowList : Option Path := none
  format : Format := .text
deriving DecidableEq, Repr

inductive Request where
  | validate (request : ValidateRequest)
  | elements (request : ElementsRequest)
  | allowList (request : AllowListRequest)
deriving DecidableEq, Repr

/-- A request with the options that every request has. -/
structure Invocation where
  /-- The configuration file, if one is named. -/
  config : Option Path
  /-- How much is to be logged. -/
  verbosity : Nat
  request : Request
deriving DecidableEq, Repr

end PuzzleGate.Cli
