import PuzzleGate.Corpus.Discovery
import PuzzleGate.Corpus.Schedule
import PuzzleGate.Validator

/-!
# Validating a corpus

Every document below the content root is read, compiled and validated by itself. A document that
cannot be read or compiled becomes a failure entry and does not stop the others. A run is the
report on the results in whatever order they were finished.
-/

namespace PuzzleGate.Corpus

open Files

/-- Why a document could not be validated. -/
inductive DocumentFault where
  | unreadable (path : Path) (fault : Fault)
  | uncompiled (path : Path) (fault : CompileFault)

def DocumentFault.message : DocumentFault → String
  | .unreadable path fault => s!"cannot read '{path.text}': {fault.message}"
  | .uncompiled path fault => s!"cannot compile '{path.text}': {fault.message}"

/-- Why a corpus could not be validated. -/
inductive RunFault where
  /-- The root is missing, or a directory below it cannot be listed. -/
  | missingRoot (fault : DiscoveryFault)
  /-- The limit is beyond the number of permits that can be handed out. -/
  | tooManyPermits (limit : Nat)
deriving DecidableEq, Repr

def RunFault.message : RunFault → String
  | .missingRoot fault => fault.message
  | .tooManyPermits _ =>
    s!"a semaphore may not have more than MAX_PERMITS permits ({maxPermits})"

def RunFault.causes : RunFault → List String
  | .missingRoot fault => fault.causes
  | .tooManyPermits _ => []

/-- What is fixed for all documents of a run. -/
structure Walker where
  root : Path
  extensions : List String
  /-- How many documents may be in work at once. -/
  limit : Nat
  compiler : Compiler
  allowed : AllowList

namespace Walker

def validatePath (walker : Walker) (disk : Disk) (path : Path) :
    Except DocumentFault DocumentReport := do
  let raw ← (disk.readText path).mapError (.unreadable path)
  let compiled ← (walker.compiler raw).mapError (.uncompiled path)
  return validate walker.allowed ⟨documentId walker.root path, raw, compiled⟩

abbrev Result := String × Except DocumentFault DocumentReport

def result (walker : Walker) (disk : Disk) (path : Path) : Result :=
  (documentId walker.root path, walker.validatePath disk path)

def reportOf? : Result → Option DocumentReport
  | (_, .ok report) => some report
  | (_, .error _) => none

def failureOf? : Result → Option DocumentFailure
  | (_, .ok _) => none
  | (document, .error fault) => some ⟨document, fault.message⟩

def collect (walker : Walker) (results : List Result) : CorpusReport :=
  .ofEntries walker.root.text (results.filterMap reportOf?) (results.filterMap failureOf?)

def run (walker : Walker) (disk : Disk) : Except RunFault CorpusReport := do
  let paths ← (discover disk walker.root walker.extensions).mapError .missingRoot
  if maxPermits < permits walker.limit then .error (.tooManyPermits walker.limit)
  else return walker.collect (paths.map (walker.result disk))

def runSingle (walker : Walker) (disk : Disk) (path : Path) : CorpusReport :=
  walker.collect [walker.result disk path]

end Walker

end PuzzleGate.Corpus
