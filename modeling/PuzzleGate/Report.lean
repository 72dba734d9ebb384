import PuzzleGate.Check
import PuzzleGate.Metadata

/-!
# Reports

A corpus report has an entry for every document: its outcomes when it was validated, and the
reason when it could not be. Entries are in the byte order of the document identifiers, and
entries with one identifier stay in the order in which they were given.
-/

namespace PuzzleGate

open Json

/-- The outcome of validating one document. -/
structure DocumentReport where
  document : String
  checks : List Outcome
  /-- The elements of the compiled source. -/
  elements : List String
  /-- The metadata record, when the frontmatter defines one. -/
  metadata : Option Metadata
deriving DecidableEq

namespace DocumentReport

def passed (report : DocumentReport) : Bool := report.checks.all Outcome.passed

def failures (report : DocumentReport) : List Outcome :=
  report.checks.filter fun outcome => !outcome.passed

def outcome? (report : DocumentReport) (check : Check) : Option Outcome :=
  report.checks.find? fun outcome => outcome.check == check

end DocumentReport

/-- A document that could not be validated at all. -/
structure DocumentFailure where
  document : String
  error : String
deriving DecidableEq, Repr

structure CorpusReport where
  /-- The content root that was scanned. -/
  root : String
  documents : List DocumentReport
  failures : List DocumentFailure
deriving DecidableEq

namespace CorpusReport

/-- The report with the given entries, sorted by document identifier. -/
def ofEntries (root : String) (documents : List DocumentReport)
    (failures : List DocumentFailure) : CorpusReport :=
  ⟨root, documents.mergeSort fun a b => decide (a.document ≤ b.document),
    failures.mergeSort fun a b => decide (a.document ≤ b.document)⟩

def total (report : CorpusReport) : Nat := report.documents.length + report.failures.length

def passedCount (report : CorpusReport) : Nat :=
  (report.documents.filter DocumentReport.passed).length

def passed (report : CorpusReport) : Bool :=
  report.failures.isEmpty && report.documents.all DocumentReport.passed

def exitCode (report : CorpusReport) : Nat := if report.passed then 0 else 1

end CorpusReport

def DocumentReport.statusLine (report : DocumentReport) : String :=
  (if report.passed then "PASS " else "FAIL ") ++ report.document

def Outcome.lines (outcome : Outcome) : List String :=
  s!"  ✗ {outcome.check.name} ({outcome.check.description})" ::
    outcome.details.map fun detail => "      " ++ detail

def DocumentReport.lines (report : DocumentReport) : List String :=
  report.statusLine :: report.failures.flatMap Outcome.lines

def DocumentFailure.statusLine (failure : DocumentFailure) : String :=
  "ERROR " ++ failure.document

def DocumentFailure.lines (failure : DocumentFailure) : List String :=
  [failure.statusLine, "      " ++ failure.error]

namespace CorpusReport

def summaryLines (report : CorpusReport) : List String :=
  ["", "=== Puzzle Content Validation ===",
    s!"Root:    {report.root}",
    s!"Total:   {report.total}",
    s!"Passed:  {report.passedCount}",
    s!"Failed:  {report.documents.length - report.passedCount}",
    s!"Errored: {report.failures.length}"]

/-- The lines of the summary; a text that an entry quotes may itself have several. -/
def lines (report : CorpusReport) : List String :=
  report.documents.flatMap DocumentReport.lines ++
    report.failures.flatMap DocumentFailure.lines ++ report.summaryLines

def text (report : CorpusReport) : String := "\n".intercalate report.lines

end CorpusReport

def stringArray (texts : List String) : Value := .array (texts.map .string)

def Outcome.toJson (outcome : Outcome) : Value :=
  .object <|
    [("check", .string outcome.check.name), ("passed", .bool outcome.passed)] ++
      if outcome.details.isEmpty then [] else [("details", stringArray outcome.details)]

def DocumentReport.toJson (report : DocumentReport) : Value :=
  .object <|
    [("document", .string report.document), ("checks", .array (report.checks.map Outcome.toJson)),
      ("elements", stringArray report.elements)] ++
    (report.metadata.map fun metadata => ("metadata", metadata.toJson)).toList

def DocumentFailure.toJson (failure : DocumentFailure) : Value :=
  .object [("document", .string failure.document), ("error", .string failure.error)]

/-- The report for machines, stamped with the time at which the run finished. -/
def CorpusReport.toJson (report : CorpusReport) (time : String) : Value :=
  .object
    [("root", .string report.root), ("generated_at", .string time),
      ("documents", .array (report.documents.map DocumentReport.toJson)),
      ("failures", .array (report.failures.map DocumentFailure.toJson))]

end PuzzleGate
