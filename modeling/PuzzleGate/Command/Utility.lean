import PuzzleGate.Files.Tree
import PuzzleGate.Command.Status

/-!
# Utilities

The utilities of which a compiler's command may consist. A utility is a function of its
arguments, its standard input and the files that it can see.
-/

namespace PuzzleGate.Command

open Files

def lineOf (text : String) : List UInt8 := Text.Utf8.bytes (text ++ "\n")

/-- The file that is always empty and swallows what is written to it. -/
def nullDevice : String := "/dev/null"

/-- What a utility is to work on. -/
structure Task where
  /-- The name under which the utility was started. -/
  name : String
  arguments : List String
  input : List UInt8
  disk : Disk

abbrev Utility := Task → Ended

namespace Task

/-- Nothing done yet: a success without any output. -/
def untouched (task : Task) : Ended := ⟨.exited 0, [], [], task.input⟩

def prints (task : Task) (output : List UInt8) : Ended := { task.untouched with output }

def refuses (task : Task) (code : Nat) (complaint : String) : Ended :=
  { task.untouched with
    status := .exited code
    errors := lineOf (task.name ++ ": " ++ complaint) }

def contentOf (task : Task) (file : String) : Except Fault (List UInt8) :=
  if file = nullDevice then .ok [] else (task.disk.readBytes (.ofText file)).map (·.data.toList)

/-- Adds the content of a file to the output; a hyphen stands for the standard input. -/
def append (task : Task) (ended : Ended) (file : String) : Ended :=
  if file = "-" then { ended with output := ended.output ++ ended.unread, unread := [] }
  else match task.contentOf file with
    | .ok content => { ended with output := ended.output ++ content }
    | .error fault =>
      { ended with
        status := .exited 1
        errors := ended.errors ++ lineOf s!"{task.name}: {file}: {fault.words}" }

/-- All files one after the other; without any, the standard input. -/
def concatenate (task : Task) (files : List String) : Ended :=
  (if files.isEmpty then ["-"] else files).foldl task.append task.untouched

def isOption (argument : String) : Bool := argument.startsWith "-" && argument ≠ "-"

end Task

def cat : Utility := fun task =>
  let files := task.arguments.filter fun argument => argument ≠ "-u" && argument ≠ "--"
  match files.find? Task.isOption with
  | some option =>
    task.refuses 1 <|
      s!"invalid option -- '{option.toList.tail.take 1 |> String.ofList}'\n" ++
        s!"Try '{task.name} --help' for more information."
  | none => task.concatenate files

def constantly (code : Nat) : Utility := fun task => { task.untouched with status := .exited code }

def pwd : Utility := fun task => task.prints (lineOf (task.disk.realDirectory.text))

def takeLines : Nat → List UInt8 → List UInt8
  | 0, _ => []
  | _, [] => []
  | count + 1, b :: rest => b :: takeLines (if b = 10 then count else count + 1) rest

def head : Utility := fun task =>
  let cut (take : Nat → List UInt8 → List UInt8) (count : String) (files : List String) : Ended :=
    match count.toNat? with
    | none => task.refuses 1 s!"invalid number: '{count}'"
    | some count =>
      if files.isEmpty then
        let output := take count task.input
        { task.prints output with unread := task.input.drop output.length }
      else
        let whole := task.concatenate files
        { whole with output := take count whole.output }
  match task.arguments with
  | "-c" :: count :: files => cut List.take count files
  | "-n" :: count :: files => cut takeLines count files
  | files => match files.head?.map String.toList with
    | some ('-' :: 'c' :: count) => cut List.take (.ofList count) files.tail
    | some ('-' :: 'n' :: count) => cut takeLines (.ofList count) files.tail
    | some ('-' :: count) => cut takeLines (.ofList count) files.tail
    | _ => cut takeLines "10" files

end PuzzleGate.Command
