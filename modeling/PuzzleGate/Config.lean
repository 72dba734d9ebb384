import PuzzleGate.AllowList.File

/-!
# Configuration

The settings of a run come from a YAML file in which every key is optional and no other keys are
allowed. Relative paths in it are taken against the directory of the file.
-/

namespace PuzzleGate

open Files Reading Yaml

structure Config where
  /-- The directory that is scanned for documents. -/
  contentRoot : Path
  /-- The extensions of documents, without the dot. -/
  extensions : List String
  /-- The allow-list file; the built-in list is used when there is none. -/
  allowList : Option Path
  /-- The compiler's program and its arguments. -/
  command : List String
  /-- How many documents may be in work at once. -/
  concurrency : Nat
  /-- The directory against which relative paths are taken and in which the compiler runs. -/
  baseDirectory : Path
deriving DecidableEq, Repr

/-- What is wrong with settings that can be read. -/
inductive Unusable where
  | noCommand
  | noExtensions
  | noConcurrency
deriving DecidableEq, Repr

def Unusable.message (fault : Unusable) : String :=
  "invalid config value: " ++ match fault with
  | .noCommand => "compiler.command must not be empty"
  | .noExtensions => "extensions must not be empty"
  | .noConcurrency => "concurrency must be at least 1"

/-- Why a configuration could not be loaded. -/
inductive ConfigFault where
  | unreadable (path : Path) (fault : Fault)
  | badYaml (path : Path) (problem : Located)
  | unusable (fault : Unusable)
deriving DecidableEq, Repr

def ConfigFault.message : ConfigFault → String
  | .unreadable path fault => s!"cannot read config '{path.text}': {fault.message}"
  | .badYaml path problem => s!"invalid config '{path.text}': {problem.message}"
  | .unusable fault => fault.message

def ConfigFault.causes : ConfigFault → List String
  | .unreadable _ fault => [fault.message]
  | _ => []

namespace Config

def defaultFile : Path := .ofText "pzl.yaml"

def recordName : String := "PzlConfig"

def compilerRecordName : String := "CompilerConfig"

def fieldNames : List String :=
  ["content_root", "extensions", "allow_list", "compiler", "concurrency"]

def compilerFieldNames : List String := ["command"]

def standard : Config where
  contentRoot := .ofText "puzzles"
  extensions := ["mdx"]
  allowList := none
  command := ["node", "scripts/compile-mdx.mjs"]
  concurrency := 8
  baseDirectory := .ofText "."

/-- Reads the settings of the compiler: the command, if it is given. -/
def readCompiler : Reader (Option (List String)) :=
  readRecord compilerRecordName none fun document location command key place node =>
    if key = "command" then
      readOnce location key command (readList (readText .string) document place node)
    else fail location (.unknownField key compilerFieldNames)

/-- The settings read so far. -/
structure Draft where
  contentRoot : Option String := none
  extensions : Option (List String) := none
  allowList : Option (Option String) := none
  compiler : Option (Option (List String)) := none
  concurrency : Option Nat := none

def Draft.take (document : Yaml.Document) (location : List Step) (draft : Draft) (key : String)
    (place : List Step) (node : Yaml.Node) : Except Located Draft :=
  if key = "content_root" then do
    return { draft with
      contentRoot := ← readOnce location key draft.contentRoot
        (readText .path document place node) }
  else if key = "extensions" then do
    return { draft with
      extensions := ← readOnce location key draft.extensions
        (readList (readText .string) document place node) }
  else if key = "allow_list" then do
    return { draft with
      allowList := ← readOnce location key draft.allowList
        (readOptional .path document place node) }
  else if key = "compiler" then do
    return { draft with
      compiler := ← readOnce location key draft.compiler (readCompiler document place node) }
  else if key = "concurrency" then do
    return { draft with
      concurrency := ← readOnce location key draft.concurrency (readSize document place node) }
  else fail location (.unknownField key fieldNames)

/-- The settings of a draft, with the standard ones where none are given. -/
def Draft.toConfig (draft : Draft) : Config where
  contentRoot := (draft.contentRoot.map Path.ofText).getD standard.contentRoot
  extensions := draft.extensions.getD standard.extensions
  allowList := draft.allowList.join.map Path.ofText
  command := draft.compiler.join.getD standard.command
  concurrency := draft.concurrency.getD standard.concurrency
  baseDirectory := standard.baseDirectory

/-- Reads the settings in a text; a blank text has none. -/
def ofText (text : String) : Except Located Config :=
  if Text.trim text = "" then .ok standard
  else Draft.toConfig <$> Yaml.decode (readRecord recordName {} Draft.take) text

def directoryOf (path : Path) : Path :=
  match path.parent? with
  | some parent => if parent.bytes = [] then .ofText "." else parent
  | none => .ofText "."

def load (disk : Disk) (path : Path) : Except ConfigFault Config := do
  let text ← (disk.readText path).mapError (.unreadable path)
  let config ← (ofText text).mapError (.badYaml path)
  return { config with baseDirectory := directoryOf path }

/-- Loads the given file, or the default file in the directory if it is there, or the standard
settings. -/
def discover (disk : Disk) (path : Option Path) (directory : Path) : Except ConfigFault Config :=
  match path with
  | some path => load disk path
  | none =>
    if disk.isFile (directory.join defaultFile) then load disk (directory.join defaultFile)
    else .ok { standard with baseDirectory := directory }

/-- Takes a path of the configuration against its base directory. -/
def resolve (config : Config) (path : Path) : Path := config.baseDirectory.join path

def root (config : Config) : Path := config.resolve config.contentRoot

def check (config : Config) : Except Unusable Unit :=
  if config.command.isEmpty then .error .noCommand
  else if config.extensions.isEmpty then .error .noExtensions
  else if config.concurrency = 0 then .error .noConcurrency
  else .ok ()

def loadAllowList (disk : Disk) (config : Config) : Except AllowListFault AllowList :=
  match config.allowList with
  | some path => AllowList.load disk (config.resolve path)
  | none => .ok AllowList.builtIn

def program (config : Config) : Except Unusable (String × List String) :=
  match config.command with
  | [] => .error .noCommand
  | program :: arguments => .ok (program, arguments)

end Config

end PuzzleGate
