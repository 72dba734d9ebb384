import PuzzleGate.Call.Scan

/-!
# The elements of a text

Calls are counted under the name of their element. Names come in the order of their first call.
-/

namespace PuzzleGate.Call

/-- An element and the number of calls that render it. -/
structure ElementCount where
  name : String
  occurrences : Nat
deriving DecidableEq, Repr

def count (name : String) : List ElementCount → List ElementCount
  | [] => [⟨name, 1⟩]
  | entry :: entries =>
    if entry.name = name then ⟨name, entry.occurrences + 1⟩ :: entries
    else entry :: count name entries

def countNames (names : List String) : List ElementCount :=
  names.foldl (fun entries name => count name entries) []

def elementCounts (text : String) : List ElementCount :=
  countNames ((scan text).map Match.name)

def elements (text : String) : List String :=
  (elementCounts text).map ElementCount.name

/-- The different members of a list, in the order in which they first occur. -/
def distinct (texts : List String) : List String :=
  texts.foldl (fun seen text => if seen.contains text then seen else seen ++ [text]) []

end PuzzleGate.Call
