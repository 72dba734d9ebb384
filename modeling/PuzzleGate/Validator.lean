import PuzzleGate.AllowList.Basic
import PuzzleGate.Call.Elements
import PuzzleGate.Compiler
import PuzzleGate.Report

/-!
# Validating a document

The checks are independent of each other: each looks at the frontmatter as a plain value, so that
a record with several faults is reported check by check. The raw source is searched for calls as
well, because calls in it could reach the compiled output without being seen as elements.
-/

namespace PuzzleGate

open Json Call

/-- A document that was read and compiled. -/
structure Document where
  id : String
  /-- The text before compilation, frontmatter included. -/
  raw : String
  compiled : Compiled

namespace Document

def frontmatter (document : Document) : Option Value := document.compiled.frontmatter

def source (document : Document) : String := document.compiled.source

end Document

def missingDetail (field : MetadataField) : String := "missing field: " ++ field.key

/-- A value in a detail: strings stand for themselves, other values by their text. -/
def describe : Value → String
  | .string s => s
  | other => other.text

def isAddressValue : Value → Bool
  | .string s => isAddress s
  | _ => false

/-- The field's value in frontmatter that may be absent as a whole. -/
def fieldOf (frontmatter : Option Value) (field : MetadataField) : Option Value :=
  frontmatter.bind field.get?

def metadataPresence (frontmatter : Option Value) : Outcome :=
  match frontmatter with
  | none => .fail .metadataPresence ["missing frontmatter"]
  | some frontmatter =>
    .ofDetails .metadataPresence <|
      (MetadataField.required.filter fun field => (field.get? frontmatter).isNone).map missingDetail

def authorFormat (frontmatter : Option Value) : Outcome :=
  .ofDetails .authorFormat <| match fieldOf frontmatter .author with
    | none => [missingDetail .author]
    | some (.string s) => if isAddress s then [] else [s]
    | some other => ["not a string: " ++ other.text]

def contributorsShape (frontmatter : Option Value) : Outcome :=
  .ofDetails .contributorsShape <| match fieldOf frontmatter .contributors with
    | none => [missingDetail .contributors]
    | some (.array []) => ["contributors is empty"]
    | some (.array items) => (items.filter fun item => !isAddressValue item).map describe
    | some other => ["not a sequence: " ++ other.text]

def authorInclusion (frontmatter : Option Value) : Outcome :=
  .ofDetails .authorInclusion <|
    match fieldOf frontmatter .author, fieldOf frontmatter .contributors with
    | none, _ => [missingDetail .author]
    | some _, none => [missingDetail .contributors]
    | some author, some (.array items) =>
      if items.any fun item => item.same author then []
      else [describe author ++ " not in contributors"]
    | some _, some other => ["contributors is not a sequence: " ++ other.text]

def adaptedFromFormat (frontmatter : Option Value) : Outcome :=
  .ofDetails .adaptedFromFormat <| match fieldOf frontmatter .adaptedFrom with
    | none | some (.string _) => []
    | some other => ["not a string: " ++ other.text]

def prohibitedRawContent (raw : String) : Outcome :=
  .ofDetails .prohibitedRawContent (distinct ((scan raw).map Match.text))

def elementAllowList (allowed : AllowList) (elements : List String) : Outcome :=
  .ofDetails .elementAllowList (allowed.disallowed elements)

def metadataOf? (frontmatter : Option Value) : Option Metadata :=
  frontmatter.bind fun frontmatter => (Metadata.ofFrontmatter frontmatter).toOption

def validate (allowed : AllowList) (document : Document) : DocumentReport where
  document := document.id
  checks :=
    [metadataPresence document.frontmatter, authorFormat document.frontmatter,
      contributorsShape document.frontmatter, authorInclusion document.frontmatter,
      adaptedFromFormat document.frontmatter, prohibitedRawContent document.raw,
      elementAllowList allowed (elements document.source)]
  elements := elements document.source
  metadata := metadataOf? document.frontmatter

end PuzzleGate
