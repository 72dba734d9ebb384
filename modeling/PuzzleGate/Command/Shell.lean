import PuzzleGate.Files.Archive
import PuzzleGate.Command.Printing
import PuzzleGate.Command.Script
import PuzzleGate.Command.Substitution

/-!
# Running scripts

A shell runs a script command by command. Its state is what later commands and the process that
waits for it can see: the rest of the standard input, what was printed, the files, the variables
and the exit code of the last command.
-/

namespace PuzzleGate.Command

open Files

structure Shell where
  /-- The name under which the shell was started. -/
  name : String
  arguments : List String
  disk : Disk
  /-- The variables that were set, the last first. -/
  bindings : List (String × String)
  input : List UInt8
  output : List UInt8
  errors : List UInt8
  /-- The exit code of the last command. -/
  code : Nat
  /-- How the shell ended, when it has. -/
  status : Option Status

/-- Where the output of a command goes. -/
inductive Sink where
  | output
  | errors
  | nothing
  | file (path : Path)

/-- The channels of a command. -/
structure Channels where
  /-- The content of the file that is read instead of the standard input. -/
  input : Option (List UInt8)
  output : Sink
  errors : Sink

def Channels.sink (channels : Channels) : Nat → Sink
  | 2 => channels.errors
  | _ => channels.output

def Channels.send (channels : Channels) (channel : Nat) (sink : Sink) : Channels :=
  match channel with
  | 1 => { channels with output := sink }
  | 2 => { channels with errors := sink }
  | _ => channels

def utility? : String → Option Utility
  | "cat" => some cat
  | "true" | ":" | "sleep" => some (constantly 0)
  | "false" => some (constantly 1)
  | "echo" => some (echo true)
  | "printf" => some printf
  | "pwd" => some pwd
  | "head" => some head
  | "sed" => some sed
  | _ => none

namespace Shell

def processNumber : String := "4711"

def value (shell : Shell) (name : String) : String :=
  match name with
  | "$" => processNumber
  | "?" => toString shell.code
  | "#" => toString shell.arguments.length
  | "@" | "*" => " ".intercalate shell.arguments
  | "0" => shell.name
  | "PWD" => shell.disk.realDirectory.text
  | _ => match name.toNat? with
    | some number => shell.arguments[number - 1]?.getD ""
    | none => (shell.bindings.lookup name).getD ""

def print (shell : Shell) (sink : Sink) (text : List UInt8) : Shell :=
  match sink with
  | .output => { shell with output := shell.output ++ text }
  | .errors => { shell with errors := shell.errors ++ text }
  | .nothing => shell
  | .file path =>
    let before := match shell.disk.readBytes path with
      | .ok content => content
      | .error _ => .empty
    match shell.disk.write path (before ++ ⟨text.toArray⟩) with
    | .ok disk => { shell with disk }
    | .error _ => shell

def complain (shell : Shell) (sink : Sink) (code : Nat) (complaint : String) : Shell :=
  { shell.print sink (lineOf s!"{shell.name}: 1: {complaint}") with code }

/-- The output of a script as a value: without the line ends behind it. -/
def valueOfOutput (output : List UInt8) : String :=
  (Text.Utf8.decodeLossy ⟨((output.reverse.dropWhile (· = 10)).reverse).toArray⟩)

def inner (shell : Shell) (input : List UInt8) : Shell :=
  { shell with input, output := [], errors := [], status := none }

def outer (shell : Shell) (ended : Shell) : Shell :=
  { shell with
    disk := { ended.disk with directory := shell.disk.directory }
    errors := shell.errors ++ ended.errors
    code := match ended.status with
      | some (.exited code) => code
      | some (.killed signal) => 128 + signal
      | none => ended.code }

def splitWords (value : String) : List String :=
  ((value.toList.splitBy fun a b => a.isWhitespace == b.isWhitespace).filter fun part =>
    !part.any Char.isWhitespace).map String.ofList

/-- Adds a value to the words that were expanded; the last of them is still open. -/
def addValue (words : List String × Option String) (quoted : Bool) (value : String) :
    List String × Option String :=
  let (done, current) := words
  if quoted then (done, some (current.getD "" ++ value))
  else
    let blankFirst := (value.toList.head?.map Char.isWhitespace).getD false
    let blankLast := (value.toList.getLast?.map Char.isWhitespace).getD false
    let (done, current) := if blankFirst then (done ++ current.toList, none) else (done, current)
    match splitWords value with
    | [] => (done, current)
    | first :: rest =>
      let all := (current.getD "" ++ first) :: rest
      if blankLast then (done ++ all, none) else (done ++ all.dropLast, all.getLast?)

section Running

variable (nested : Shell → String → Shell)

def expandPart (state : Shell × List String × Option String) (part : Part) :
    Shell × List String × Option String :=
  let (shell, words) := state
  match part with
  | .text text => (shell, addValue words true text)
  | .variable quoted name => (shell, addValue words quoted (shell.value name))
  | .output quoted script =>
    let ended := nested (shell.inner shell.input) script
    let shell := { shell.outer ended with input := ended.input }
    (shell, addValue words quoted (valueOfOutput ended.output))

def expandWord (shell : Shell) (word : Word) : Shell × List String :=
  let (shell, done, current) := word.foldl (expandPart nested) (shell, [], none)
  (shell, done ++ current.toList)

def expandWords (shell : Shell) (words : List Word) : Shell × List String :=
  words.foldl (fun (shell, done) word =>
    let (shell, more) := expandWord nested shell word
    (shell, done ++ more)) (shell, [])

def openFile (shell : Shell) (name : String) (append : Bool) : Except Fault (Shell × Sink) := do
  if name = nullDevice then return (shell, .nothing)
  let before :=
    if append then (shell.disk.readBytes (.ofText name)).toOption.getD .empty else .empty
  return ({ shell with disk := ← shell.disk.write (.ofText name) before }, .file (.ofText name))

def redirect (state : Shell × Channels) (redirection : Redirection) :
    Except Shell (Shell × Channels) :=
  let (shell, channels) := state
  let (shell, words) := expandWord nested shell redirection.target
  let name := words.head?.getD ""
  match redirection.direction with
  | .read =>
    match if name = nullDevice then .ok .empty else shell.disk.readBytes (.ofText name) with
    | .ok content => .ok (shell, { channels with input := some content.data.toList })
    | .error _ => .error (shell.complain channels.errors 2 s!"cannot open {name}: No such file")
  | .write => match openFile shell name false with
    | .ok (shell, sink) => .ok (shell, channels.send redirection.channel sink)
    | .error _ =>
      .error (shell.complain channels.errors 2 s!"cannot create {name}: Directory nonexistent")
  | .append => match openFile shell name true with
    | .ok (shell, sink) => .ok (shell, channels.send redirection.channel sink)
    | .error _ =>
      .error (shell.complain channels.errors 2 s!"cannot create {name}: Directory nonexistent")
  | .copy =>
    if name = "-" then .ok (shell, channels.send redirection.channel .nothing)
    else match name.toNat? with
      | some 0 => .ok (shell, channels)
      | some number => .ok (shell, channels.send redirection.channel (channels.sink number))
      | none => .error (shell.complain channels.errors 2 "Syntax error: Bad fd number")

/-- The number of a signal, as `kill` takes it. -/
def signalOf? (option : String) : Option Nat :=
  let name := (if option.startsWith "SIG" then option.drop 3 else option.drop 0).toString
  match name.toNat? with
  | some number => some number
  | none => signalOfName? name

def kill (shell : Shell) (channels : Channels) (arguments : List String) : Shell :=
  let (signal, targets) := match arguments with
    | "-s" :: signal :: targets => (signalOf? signal, targets)
    | option :: targets =>
      if Task.isOption option then (signalOf? (option.drop 1).toString, targets)
      else (some 15, option :: targets)
    | [] => (none, [])
  match signal with
  | none => shell.complain channels.errors 2 "kill: bad arguments"
  | some signal =>
    if !targets.contains processNumber then shell.complain channels.errors 1 "kill: No such process"
    else if harmlessSignals.contains signal then { shell with code := 0 }
    else { shell with status := some (.killed signal) }

def runUtility (shell : Shell) (channels : Channels) (name : String) (arguments : List String) :
    Shell :=
  match utility? name with
  | none => shell.complain channels.errors 127 (name ++ ": not found")
  | some utility =>
    let ended := utility ⟨name, arguments, channels.input.getD shell.input, shell.disk⟩
    let shell := (shell.print channels.output ended.output).print channels.errors ended.errors
    { shell with
      input := if channels.input.isNone then ended.unread else shell.input
      code := match ended.status with
        | .exited code => code
        | .killed signal => 128 + signal }

/-- Ends the shell with this exit code, or with that of the last command. -/
def exit (shell : Shell) (channels : Channels) (code : Option String) : Shell :=
  match code with
  | none => { shell with status := some (.exited shell.code) }
  | some text => match text.toNat? with
    | some code => { shell with code := code % 256, status := some (.exited (code % 256)) }
    | none =>
      { shell.complain channels.errors 2 s!"exit: Illegal number: {text}" with
        status := some (.exited 2) }

def changeDirectory (shell : Shell) (channels : Channels) (directory : String) : Shell :=
  if shell.disk.isDirectory (.ofText directory) then
    { shell with disk := shell.disk.inside (.ofText directory), code := 0 }
  else shell.complain channels.errors 2 s!"cd: can't cd to {directory}"

def runWords (shell : Shell) (channels : Channels) : List String → Shell
  | [] => shell
  | "exit" :: arguments => shell.exit channels arguments.head?
  | "kill" :: arguments => shell.kill channels arguments
  | "cd" :: directory :: _ => shell.changeDirectory channels directory
  | "exec" :: name :: arguments =>
    let shell := shell.runUtility channels name arguments
    { shell with status := some (.exited shell.code) }
  | name :: arguments => shell.runUtility channels name arguments

def assignment? : Word → Option (String × Word)
  | .text text :: parts =>
    let name := text.toList.takeWhile (· ≠ '=')
    let value := text.toList.drop (name.length + 1)
    if name ≠ [] && name.length < text.length && name.all Lexer.isNameChar
        && !(name.head?.map Char.isDigit).getD false then
      some (.ofList name, .text (.ofList value) :: parts)
    else none
  | _ => none

def wholePart : Part → Part
  | .text text => .text text
  | .variable _ name => .variable true name
  | .output _ script => .output true script

/-- Sets the variables at the front of a command and returns the other words. -/
def assign (shell : Shell) : List Word → Shell × List Word
  | [] => (shell, [])
  | word :: words => match assignment? word with
    | none => (shell, word :: words)
    | some (name, value) =>
      let (shell, values) := expandWord nested { shell with code := 0 } (value.map wholePart)
      let bindings := (name, " ".intercalate values) :: shell.bindings
      assign { shell with bindings } words

def runStage (shell : Shell) (stage : Stage) : Shell :=
  match stage.redirections.foldlM (redirect nested) (shell, ⟨none, .output, .errors⟩) with
  | .error shell => shell
  | .ok (shell, channels) => match stage.action with
    | .words words =>
      let (shell, words) := assign nested shell words
      let (shell, words) := expandWords nested shell words
      shell.runWords channels words
    | .group script =>
      let ended := nested (shell.inner (channels.input.getD shell.input)) script
      let after := { shell.outer ended with errors := shell.errors }
      let after :=
        { after with input := if channels.input.isNone then ended.input else shell.input }
      let after := (after.print channels.output ended.output).print channels.errors ended.errors
      match ended.status with
      | some (.killed signal) => { after with status := some (.killed signal) }
      | _ => after

/-- Runs the stages of a pipeline, each on the output of the one before. -/
def runStages (shell : Shell) (input : List UInt8) : List Stage → Shell
  | [] => shell
  | [stage] =>
    let ended := runStage nested (shell.inner input) stage
    let after := shell.outer ended
    { after with output := after.output ++ ended.output }
  | stage :: stages =>
    let ended := runStage nested (shell.inner input) stage
    runStages (shell.outer ended) ended.output stages

/-- Runs a pipeline. The only stage of a pipeline runs in the shell itself; otherwise the first
one reads the standard input, and what it leaves of that is left for later commands. -/
def runPipeline (shell : Shell) (pipeline : Pipeline) : Shell :=
  let shell := match pipeline.stages with
    | [] => shell
    | [stage] => runStage nested shell stage
    | stage :: stages =>
      let ended := runStage nested (shell.inner shell.input) stage
      runStages nested { shell.outer ended with input := ended.input } ended.output stages
  if pipeline.negated then { shell with code := if shell.code = 0 then 1 else 0 } else shell

def isDue (shell : Shell) (joint : Joint) : Bool :=
  match joint with
  | .always => true
  | .afterSuccess => shell.code = 0
  | .afterFailure => shell.code ≠ 0

def runEntries (shell : Shell) (script : Script) : Shell :=
  script.foldl (fun shell entry =>
    if shell.status.isNone && shell.isDue entry.joint then runPipeline nested shell entry.pipeline
    else shell) shell

def runText (shell : Shell) (text : String) : Shell :=
  match Script.ofText? text with
  | some script => runEntries nested shell script
  | none => { shell.complain .errors 2 "Syntax error" with status := some (.exited 2) }

end Running

def runNested : (depth : Nat) → Shell → String → Shell
  | 0 => fun shell _ => shell
  | depth + 1 => runText (runNested depth)

/-- Runs a script. A nested script is shorter than the one around it. -/
def run (shell : Shell) (script : String) : Shell :=
  runNested (script.length + 1) shell script

def ended (shell : Shell) : Ended :=
  ⟨shell.status.getD (.exited shell.code), shell.output, shell.errors, shell.input⟩

end Shell

end PuzzleGate.Command
