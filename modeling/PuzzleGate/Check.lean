/-!
# Checks and their outcomes

Seven checks run against every document, in the order of `Check.all`. An outcome made from
details passes exactly when there are none.
-/

namespace PuzzleGate

inductive Check where
  | metadataPresence
  | authorFormat
  | contributorsShape
  | authorInclusion
  | adaptedFromFormat
  | prohibitedRawContent
  | elementAllowList
deriving DecidableEq, Repr

namespace Check

def all : List Check :=
  [.metadataPresence, .authorFormat, .contributorsShape, .authorInclusion, .adaptedFromFormat,
    .prohibitedRawContent, .elementAllowList]

def name : Check → String
  | .metadataPresence => "metadata-presence"
  | .authorFormat => "author-format"
  | .contributorsShape => "contributors-shape"
  | .authorInclusion => "author-inclusion"
  | .adaptedFromFormat => "adapted-from-format"
  | .prohibitedRawContent => "prohibited-raw-content"
  | .elementAllowList => "element-allow-list"

def description : Check → String
  | .metadataPresence => "frontmatter defines author and contributors"
  | .authorFormat => "author is an address"
  | .contributorsShape => "contributors is a non-empty list of addresses"
  | .authorInclusion => "contributors includes the author"
  | .adaptedFromFormat => "adapted_from is a string when present"
  | .prohibitedRawContent => "source contains no compiled JSX call syntax"
  | .elementAllowList => "only allow-listed elements are rendered"

def ofName? (name : String) : Option Check :=
  all.find? fun check => check.name == name

end Check

/-- The result of one check on one document. -/
structure Outcome where
  check : Check
  passed : Bool
  /-- The offending values when the check failed. -/
  details : List String
deriving DecidableEq, Repr

namespace Outcome

def pass (check : Check) : Outcome := ⟨check, true, []⟩

def fail (check : Check) (details : List String) : Outcome := ⟨check, false, details⟩

/-- Passes when there are no details, and fails with them otherwise. -/
def ofDetails (check : Check) (details : List String) : Outcome :=
  if details.isEmpty then pass check else fail check details

end Outcome

end PuzzleGate
