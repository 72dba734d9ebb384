import PuzzleGate.Compiler
import PuzzleGate.Command.Shell

/-!
# Commands as compilers

A command is a program with its arguments. As a compiler it is started anew for every document,
is given the raw text as its standard input, and prints the compiled document.
-/

namespace PuzzleGate

open Files

/-- A program with its arguments. -/
structure Command where
  program : String
  arguments : List String
  /-- The directory in which the command is run, if it is not the working directory. -/
  directory : Option Path

namespace Command

def programDirectories : List String := ["/bin/", "/usr/bin/"]

def baseName (program : String) : String :=
  (programDirectories.findSome? fun directory =>
    if program.startsWith directory then some (program.drop directory.length).toString
    else none).getD program

def runShell (task : Task) : Ended :=
  let shell : Shell := ⟨task.name, [], task.disk, [], task.input, [], [], 0, none⟩
  match task.arguments with
  | "-c" :: script :: name :: arguments => (({ shell with name, arguments }).run script).ended
  | ["-c", script] => (shell.run script).ended
  | ["-c"] => task.refuses 2 "0: -c requires an argument"
  | [] | ["-s"] =>
    (({ shell with input := [] }).run (Text.Utf8.decodeLossy ⟨task.input.toArray⟩)).ended
  | file :: arguments => match task.disk.readBytes (.ofText file) with
    | .ok content =>
      (({ shell with name := file, arguments }).run (Text.Utf8.decodeLossy content)).ended
    | .error _ => task.refuses 2 s!"0: cannot open {file}: No such file"

def program? (name : String) : Option Utility :=
  match name with
  | "sh" => some runShell
  | "echo" => some (echo false)
  | ":" => none
  | name => utility? name

def diskOf (command : Command) (disk : Disk) : Except Fault Disk :=
  match command.directory with
  | none => .ok disk
  | some directory => do
    match ← disk.locate directory with
    | .directory _ => .ok (disk.inside directory)
    | .closed fault => .error fault
    | _ => .error .notDirectory

def faultOfPath (disk : Disk) (program : String) : Fault :=
  match disk.locate (.ofText program) with
  | .ok _ => .permissionDenied
  | .error fault => fault

def isSound (command : Command) : Bool :=
  (command.directory.all fun directory => !directory.bytes.contains 0) &&
    (command.program :: command.arguments).all fun word => !word.toList.contains '\x00'

def run (command : Command) (disk : Disk) (input : List UInt8) : Except Fault Ended := do
  if !command.isSound then .error .nulInCommand
  else
    let disk ← command.diskOf disk
    match program? (baseName command.program) with
    | some utility => .ok (utility ⟨command.program, command.arguments, input, disk⟩)
    | none =>
      if command.program.toList.contains '/' then .error (faultOfPath disk command.program)
      else if command.program = "." || command.program = ".." then .error .permissionDenied
      else if maxNameSize < command.program.utf8ByteSize then .error .nameTooLong
      else .error .notFound

def pipeCapacity : Nat := 65536

end Command

/-- The compiler that runs a command. A failure of the command counts more than text which it did
not take. -/
def Compiler.ofCommand (disk : Files.Disk) (command : Command) : Compiler := fun raw =>
  match command.run disk (Text.Utf8.bytes raw) with
  | .error fault => .error (.cannotStart command.program fault)
  | .ok ended =>
    if !ended.status.isSuccess then
      .error (.failed ended.status.message
        (Text.trim (Text.Utf8.decodeLossy ⟨ended.errors.toArray⟩)))
    else if Command.pipeCapacity < ended.unread.length then .error (.cannotFeed .brokenPipe)
    else Compiled.ofOutput ⟨ended.output.toArray⟩

end PuzzleGate
