import PuzzleGate.Files.Fault
import PuzzleGate.Json.Decode
import PuzzleGate.Text.Blank
import PuzzleGate.Text.Utf8

/-!
# The compiler's output

A compiler turns the raw text of a document into frontmatter and compiled source, which it writes
as a JSON record with blank characters around it. The frontmatter is an object when there is any.
-/

namespace PuzzleGate

open Json Reading

/-- A compiled document. -/
structure Compiled where
  frontmatter : Option Value
  source : String

/-- What is wrong with a compiler's output. -/
inductive OutputFault where
  | notText (fault : Text.Utf8.Fault)
  | unreadable (problem : Problem)
  | badFrontmatter (found : Value)

/-- Why a document could not be compiled. -/
inductive CompileFault where
  | cannotStart (program : String) (fault : Files.Fault)
  | cannotFeed (fault : Files.Fault)
  | failed (status : String) (stderr : String)
  | badOutput (fault : OutputFault)

abbrev Compiler := String → Except CompileFault Compiled

def OutputFault.message : OutputFault → String
  | .notText fault => "not UTF-8: " ++ fault.message
  | .unreadable problem => problem.message
  | .badFrontmatter found => "frontmatter must be an object, found " ++ found.text

def CompileFault.message : CompileFault → String
  | .cannotStart program fault => s!"cannot start compiler '{program}': {fault.message}"
  | .cannotFeed fault => s!"compiler io error: {fault.message}"
  | .failed status stderr => s!"compiler exited with {status}: {stderr}"
  | .badOutput fault => s!"malformed compiler output: {fault.message}"

def CompileFault.causes : CompileFault → List String
  | .cannotStart _ fault | .cannotFeed fault => [fault.message]
  | .failed .. | .badOutput _ => []

namespace Compiled

def recordName : String := "CompiledDocument"

/-- The fields read so far. -/
structure Draft where
  frontmatter : Option (Option Value) := none
  source : Option String := none

/-- Frontmatter is any value one level below the record; null means that there is none. -/
def frontmatterOf (tree : Tree) : Except Problem (Option Value) :=
  tree.asOption (Tree.asValue (maxDepth - 1))

/-- Reads one member; members that are no field are skipped. -/
def Draft.take (draft : Draft) (key : String) (tree : Tree) : Except Problem Draft :=
  if key = "frontmatter" then do
    return { draft with frontmatter := ← setOnce key draft.frontmatter (frontmatterOf tree) }
  else if key = "compiledSource" then do
    return { draft with source := ← setOnce key draft.source tree.asString }
  else .ok draft

/-- Reads the record from an object, or from an array of its fields in order. -/
def ofTree : Tree → Except Problem Compiled
  | .object members closed => do
    let draft ← Tree.foldMembers Draft.take {} members closed
    return ⟨draft.frontmatter.join, ← require "compiledSource" draft.source⟩
  | .array [] closed => do
    requireClosed closed
    .error (.tooShort 1 2 recordName)
  | .array [frontmatter] closed => do
    let _ ← frontmatterOf frontmatter
    requireClosed closed
    .error (.tooShort 1 2 recordName)
  | .array (frontmatter :: source :: rest) closed => do
    let frontmatter ← frontmatterOf frontmatter
    let source ← source.asString
    requireClosed (closed && rest.isEmpty)
    return ⟨frontmatter, source⟩
  | tree => .error (tree.unexpected (.record recordName))

/-- The record as JSON; absent frontmatter is written as null. -/
def toJson (compiled : Compiled) : Value :=
  .object
    [("frontmatter", compiled.frontmatter.getD .null), ("compiledSource", .string compiled.source)]

def checkFrontmatter (compiled : Compiled) : Except CompileFault Compiled :=
  match compiled.frontmatter with
  | none | some (.object _) => .ok compiled
  | some other => .error (.badOutput (.badFrontmatter other))

def ofOutput (output : ByteArray) : Except CompileFault Compiled :=
  match Text.Utf8.decode output with
  | .error fault => .error (.badOutput (.notText fault))
  | .ok text => match decode ofTree (Text.trim text) with
    | .error problem => .error (.badOutput (.unreadable problem))
    | .ok compiled => compiled.checkFrontmatter

end Compiled

/-- A prepared answer of a compiler. -/
inductive PreparedAnswer where
  | output (text : String)
  | failure (status stderr : String)

/-- The compiler that answers as the table says, where the last entry for a text counts, and that
takes any other text for compiler output. -/
def Compiler.ofTable (table : List (String × PreparedAnswer)) : Compiler := fun raw =>
  match table.reverse.lookup raw with
  | some (.failure status stderr) => .error (.failed status stderr)
  | some (.output text) => Compiled.ofOutput (Text.Utf8.encode text)
  | none => Compiled.ofOutput (Text.Utf8.encode raw)

end PuzzleGate
