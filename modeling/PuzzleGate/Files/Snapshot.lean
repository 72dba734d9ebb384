import PuzzleGate.Files.Archive
import PuzzleGate.Json.Value

/-!
# Snapshots

A snapshot is what a run of a program sees of the world: the file tree, the working directory and
the time. As JSON it has an entry for each file with its text, for each link with its target, and
for each directory with its path alone.
-/

namespace PuzzleGate.Files

open Json

structure Snapshot where
  disk : Disk
  time : String

def textField? (value : Value) (key : String) : Option String :=
  match value.field? key with
  | some (.string text) => some text
  | _ => none

def ArchiveItem.ofJson? (value : Value) : Option ArchiveItem :=
  (textField? value "path").map fun path =>
    ⟨.ofText path, match textField? value "text", textField? value "link" with
      | some text, _ => .ofText text
      | none, some target => .link (.ofText target)
      | none, none => .directory []⟩

def Snapshot.ofJson? (value : Value) : Option Snapshot := do
  let directory ← textField? value "directory"
  let time ← textField? value "time"
  match value.field? "files" with
  | some (.array items) =>
    let items ← items.mapM ArchiveItem.ofJson?
    return ⟨⟨ofArchive (⟨.ofText directory, .directory []⟩ :: items), .ofText directory⟩, time⟩
  | _ => none

end PuzzleGate.Files
