import PuzzleGate.Cli.Request
import PuzzleGate.Command.Basic
import PuzzleGate.Config
import PuzzleGate.Corpus.Run

/-!
# Answering requests

A request is answered from the file tree and the configuration alone. The answer is what is
printed, and an exit code that says whether everything asked about was in order; a request that
cannot be answered has a message that leads from the outermost circumstance to the cause.
-/

namespace PuzzleGate.Cli

open Files Json

/-- What is printed for a request. -/
structure Answer where
  output : String
  exitCode : Nat
deriving DecidableEq, Repr

/-- Why a request could not be answered. -/
inductive RequestFault where
  | badConfig (fault : ConfigFault)
  /-- The allow-list of the configuration. -/
  | badAllowList (fault : AllowListFault)
  /-- The allow-list that the request names. -/
  | badNamedAllowList (path : Path) (fault : AllowListFault)
  | noRun (root : Path) (fault : Corpus.RunFault)
  | unreadable (path : Path) (fault : Fault)
  | uncompiled (path : Path) (fault : CompileFault)

namespace RequestFault

/-- The circumstances of a fault, from the outermost to the cause. -/
def chain : RequestFault → List String
  | .badConfig fault => fault.message :: fault.causes
  | .badAllowList fault => fault.message :: fault.causes
  | .badNamedAllowList path fault =>
    s!"loading allow-list {path.text}" :: fault.message :: fault.causes
  | .noRun root fault => s!"validating {root.text}" :: fault.message :: fault.causes
  | .unreadable path fault => [s!"reading {path.text}", fault.message]
  | .uncompiled path fault => s!"compiling {path.text}" :: fault.message :: fault.causes

def message (fault : RequestFault) : String := ": ".intercalate fault.chain

/-- The exit code: one, unless the run broke down. -/
def exitCode : RequestFault → Nat
  | .noRun _ (.tooManyPermits _) => 101
  | _ => 1

end RequestFault

def nameWidth : Nat := 32

/-- A name in its column; longer names are not cut. -/
def padName (name : String) : String :=
  name ++ String.ofList (List.replicate (nameWidth - name.length) ' ')

def linesText (lines : List String) : String := .join (lines.map (· ++ "\n"))

def jsonText (value : Value) : String := value.pretty ++ "\n"

def loadConfig (disk : Disk) (path : Option Path) (directory : Path) :
    Except RequestFault Config := do
  let config ← (Config.discover disk (path.map directory.join) directory).mapError .badConfig
  config.check.mapError fun fault => .badConfig (.unusable fault)
  return config

/-- The allow-list that the request names, or else that of the configuration. -/
def loadAllowList (disk : Disk) (config : Config) (directory : Path) (path : Option Path) :
    Except RequestFault AllowList :=
  match path with
  | some path =>
    (AllowList.load disk (directory.join path)).mapError (.badNamedAllowList (directory.join path))
  | none => (config.loadAllowList disk).mapError .badAllowList

/-- What the output and the report of a run look like in a format. -/
def reportText (format : Format) (report : CorpusReport) (time : String) : String :=
  match format with
  | .text => report.text ++ "\n"
  | .json => jsonText (report.toJson time)

def ValidateRequest.walker (request : ValidateRequest) (config : Config) (directory : Path)
    (compiler : Compiler) (allowed : AllowList) : Corpus.Walker where
  root := (request.root.map directory.join).getD config.root
  extensions := config.extensions
  limit := config.concurrency
  compiler := compiler
  allowed := allowed

def ValidateRequest.report (request : ValidateRequest) (disk : Disk) (config : Config)
    (directory : Path) (compiler : Compiler) : Except RequestFault CorpusReport := do
  let allowed ← loadAllowList disk config directory request.allowList
  let walker := request.walker config directory compiler allowed
  match request.path with
  | some path => return walker.runSingle disk (directory.join path)
  | none => (walker.run disk).mapError (.noRun walker.root)

def ValidateRequest.answer (request : ValidateRequest) (disk : Disk) (config : Config)
    (directory : Path) (compiler : Compiler) (time : String) : Except RequestFault Answer := do
  let report ← request.report disk config directory compiler
  return ⟨reportText request.format report time, report.exitCode⟩

/-- The compiled source of the document that an elements request names. -/
def ElementsRequest.source (request : ElementsRequest) (disk : Disk) (directory : Path)
    (compiler : Compiler) : Except RequestFault String := do
  let path := directory.join request.file
  let text ← (disk.readText path).mapError (.unreadable path)
  if request.compiled then return text
  else return (← (compiler text).mapError (.uncompiled path)).source

def countLines (counts : List Call.ElementCount) : List String :=
  (counts.map fun count => s!"{padName count.name} {count.occurrences}") ++
    ["", s!"Distinct elements: {counts.length}"]

def countsJson (counts : List Call.ElementCount) : Value :=
  .array <| counts.map fun count =>
    .object [("name", .string count.name), ("occurrences", .ofNat count.occurrences)]

def ElementsRequest.answer (request : ElementsRequest) (disk : Disk) (directory : Path)
    (compiler : Compiler) : Except RequestFault Answer := do
  let counts := Call.elementCounts (← request.source disk directory compiler)
  match request.format with
  | .text => return ⟨linesText (countLines counts), 0⟩
  | .json => return ⟨jsonText (countsJson counts), 0⟩

def listText (format : Format) (list : AllowList) : String :=
  match format with
  | .text => linesText (list.names ++ ["", s!"Total: {list.size} elements"])
  | .json => jsonText (stringArray list.names)

def verdict (list : AllowList) (name : String) : String :=
  if list.contains name then "allowed" else "DISALLOWED"

def verdictText (format : Format) (list : AllowList) (names : List String) : String :=
  match format with
  | .text => linesText (names.map fun name => s!"{padName name} {verdict list name}")
  | .json => jsonText <| .object
    [("allowed", stringArray (names.filter list.contains)),
      ("disallowed", stringArray (list.disallowed names))]

def AllowListRequest.answer (request : AllowListRequest) (disk : Disk) (config : Config)
    (directory : Path) : Except RequestFault Answer := do
  let list ← loadAllowList disk config directory request.allowList
  if request.names.isEmpty then return ⟨listText request.format list, 0⟩
  else
    return ⟨verdictText request.format list request.names,
      if (list.disallowed request.names).isEmpty then 0 else 1⟩

def Request.answer (request : Request) (disk : Disk) (config : Config) (directory : Path)
    (compiler : Compiler) (time : String) : Except RequestFault Answer :=
  match request with
  | .validate request => request.answer disk config directory compiler time
  | .elements request => request.answer disk directory compiler
  | .allowList request => request.answer disk config directory

/-- The compiler that the configuration names; it is run in the base directory. -/
def configuredCompiler (disk : Disk) (config : Config) : Except RequestFault Compiler := do
  let (program, arguments) ← config.program.mapError fun fault => .badConfig (.unusable fault)
  return .ofCommand disk ⟨program, arguments, some config.baseDirectory⟩

/-- The compiler for a request: the given one, or else that of the configuration. -/
def chosenCompiler (disk : Disk) (config : Config) (given : Option Compiler) :
    Except RequestFault Compiler :=
  match given with
  | some compiler => .ok compiler
  | none => configuredCompiler disk config

/-- Answers a request from the working directory, with the configured compiler unless another one
is given. -/
def Invocation.answer (invocation : Invocation) (disk : Disk) (given : Option Compiler)
    (time : String) : Except RequestFault Answer := do
  let config ← loadConfig disk invocation.config disk.directory
  let compiler ← chosenCompiler disk config given
  invocation.request.answer disk config disk.directory compiler time

end PuzzleGate.Cli
