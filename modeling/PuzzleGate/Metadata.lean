import PuzzleGate.Address

/-!
# The metadata record of a puzzle

Every puzzle document names its author and its contributors by address, the author being one of
the contributors, and may name the source it was adapted from. `Metadata.ofFrontmatter` builds the
record from frontmatter and stops at the first problem; `Metadata.ofJson` reads the record as such
and does not compare its fields with each other.
-/

namespace PuzzleGate

open Json

/-- The frontmatter keys of the record. -/
inductive MetadataField where
  | author
  | contributors
  | adaptedFrom
deriving DecidableEq, Repr

namespace MetadataField

def key : MetadataField → String
  | .author => "author"
  | .contributors => "contributors"
  | .adaptedFrom => "adapted_from"

/-- The fields that must be present, in the order in which they are reported. -/
def required : List MetadataField := [.author, .contributors]

/-- The field's value in frontmatter; null counts as absent. -/
def get? (field : MetadataField) (frontmatter : Value) : Option Value :=
  match frontmatter.field? field.key with
  | some .null => none
  | found => found

end MetadataField

structure Metadata where
  author : Address
  contributors : List Address
  adaptedFrom : Option String
deriving DecidableEq

/-- What is wrong with a field that is present. -/
inductive FieldFault where
  | notString (found : Value)
  | notSequence (found : Value)
  | empty
  | omitsAuthor (author : Address)

/-- Why frontmatter gives no record. -/
inductive MetadataFault where
  | missing (field : MetadataField)
  | badAddress (text : String)
  | badField (field : MetadataField) (fault : FieldFault)

def FieldFault.message : FieldFault → String
  | .notString found => "expected a string, found " ++ found.text
  | .notSequence found => "expected a sequence, found " ++ found.text
  | .empty => "must contain at least one address"
  | .omitsAuthor author => "does not include author " ++ author.text

def MetadataFault.message : MetadataFault → String
  | .missing field => "missing required field: " ++ field.key
  | .badAddress text => Reading.addressMessage text
  | .badField field fault => s!"invalid field '{field.key}': {fault.message}"

namespace Metadata

def includesAuthor (metadata : Metadata) : Bool :=
  metadata.contributors.contains metadata.author

def addressOf (text : String) : Except MetadataFault Address :=
  match Address.ofString? text with
  | some address => .ok address
  | none => .error (.badAddress text)

/-- A contributor: a string that is an address. -/
def contributorOf : Value → Except MetadataFault Address
  | .string s => addressOf s
  | other => .error (.badAddress other.text)

def authorOf (frontmatter : Value) : Except MetadataFault Address :=
  match MetadataField.author.get? frontmatter with
  | none => .error (.missing .author)
  | some (.string s) => addressOf s
  | some other => .error (.badField .author (.notString other))

def contributorsOf (frontmatter : Value) : Except MetadataFault (List Address) :=
  match MetadataField.contributors.get? frontmatter with
  | none => .error (.missing .contributors)
  | some (.array items) => do
    let addresses ← items.mapM contributorOf
    if addresses.isEmpty then .error (.badField .contributors .empty) else .ok addresses
  | some other => .error (.badField .contributors (.notSequence other))

def adaptedFromOf (frontmatter : Value) : Except MetadataFault (Option String) :=
  match MetadataField.adaptedFrom.get? frontmatter with
  | none => .ok none
  | some (.string s) => .ok (some s)
  | some other => .error (.badField .adaptedFrom (.notString other))

/-- The record that frontmatter defines, or the first thing wrong with it. -/
def ofFrontmatter (frontmatter : Value) : Except MetadataFault Metadata := do
  let author ← authorOf frontmatter
  let contributors ← contributorsOf frontmatter
  let adaptedFrom ← adaptedFromOf frontmatter
  let metadata : Metadata := ⟨author, contributors, adaptedFrom⟩
  if metadata.includesAuthor then .ok metadata
  else .error (.badField .contributors (.omitsAuthor author))

/-- The record as JSON; an absent source is left out. -/
def toJson (metadata : Metadata) : Value :=
  .object <|
    [("author", .string metadata.author.text),
      ("contributors", .array (metadata.contributors.map fun address => .string address.text))] ++
    (metadata.adaptedFrom.map fun source => ("adapted_from", .string source)).toList

open Reading

def recordName : String := "PuzzleMetadata"

/-- The fields read so far. -/
structure Draft where
  author : Option Address := none
  contributors : Option (List Address) := none
  adaptedFrom : Option (Option String) := none

/-- Reads one member; members that are no field are skipped. -/
def Draft.take (draft : Draft) (key : String) (tree : Tree) : Except Problem Draft :=
  if key = "author" then do
    return { draft with author := ← setOnce key draft.author (Address.ofTree tree) }
  else if key = "contributors" then do
    return { draft with
      contributors := ← setOnce key draft.contributors (tree.asList Address.ofTree) }
  else if key = "adapted_from" then do
    return { draft with
      adaptedFrom := ← setOnce key draft.adaptedFrom (tree.asOption Tree.asString) }
  else .ok draft

/-- Reads the record from an object, or from an array of its fields in order. -/
def ofTree : Tree → Except Problem Metadata
  | .object members closed => do
    let draft ← Tree.foldMembers Draft.take {} members closed
    return ⟨← require "author" draft.author, ← require "contributors" draft.contributors,
      draft.adaptedFrom.join⟩
  | .array [] closed => do
    requireClosed closed
    .error (.tooShort 0 3 recordName)
  | .array [author] closed => do
    let _ ← Address.ofTree author
    requireClosed closed
    .error (.tooShort 1 3 recordName)
  | .array [author, contributors] closed => do
    let author ← Address.ofTree author
    let contributors ← contributors.asList Address.ofTree
    requireClosed closed
    return ⟨author, contributors, none⟩
  | .array (author :: contributors :: adaptedFrom :: rest) closed => do
    let author ← Address.ofTree author
    let contributors ← contributors.asList Address.ofTree
    let adaptedFrom ← adaptedFrom.asOption Tree.asString
    requireClosed (closed && rest.isEmpty)
    return ⟨author, contributors, adaptedFrom⟩
  | tree => .error (tree.unexpected (.record recordName))

def ofJson (text : String) : Except Problem Metadata :=
  decode ofTree text

end Metadata

end PuzzleGate
