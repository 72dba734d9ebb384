import PuzzleGate.Cli.Program
import PuzzleGate.Files.Snapshot
import PuzzleGate.Json.Tree

/-!
# The command line

The arguments are those of the program; the first line of the standard input is the snapshot on
which it is run.
-/

open PuzzleGate

def main (arguments : List String) : IO UInt32 := do
  let line ← (← IO.getStdin).getLine
  match (Json.parse? line).bind Files.Snapshot.ofJson? with
  | none =>
    IO.eprintln "the standard input holds no snapshot"
    return 1
  | some snapshot =>
    let ending := Cli.run arguments snapshot.disk snapshot.time
    IO.print ending.output
    unless ending.complaint.isEmpty do IO.eprintln ending.complaint
    return ending.exitCode.toUInt32
