import PuzzleGate.Cli.Arguments
import PuzzleGate.Cli.Run

/-!
# The program

A run of the program prints its answer and nothing else. When there is no answer it prints
nothing, complains, and ends with an exit code that tells a wrong command line from a request
that could not be answered.
-/

namespace PuzzleGate.Cli

/-- What a run of the program leaves behind. -/
structure Ending where
  output : String := ""
  complaint : String := ""
  exitCode : Nat

/-- What is left behind by a request: its answer, or a complaint that there is none. -/
def Ending.ofAnswer : Except RequestFault Answer → Ending
  | .ok answer => { output := answer.output, exitCode := answer.exitCode }
  | .error fault => { complaint := fault.message, exitCode := fault.exitCode }

def versionText : String := "pzl 0.1.0\n"

def helpText : String := "Usage: pzl [OPTIONS] <validate|elements|allowlist>\n"

def misuseCode : Nat := 2

def run (arguments : List String) (disk : Files.Disk) (time : String) : Ending :=
  match Invocation.ofArguments arguments with
  | .error .version => { output := versionText, exitCode := 0 }
  | .error .help => { output := helpText, exitCode := 0 }
  | .error (.misuse fault) => { complaint := fault.message, exitCode := misuseCode }
  | .ok invocation => .ofAnswer (invocation.answer disk none time)

end PuzzleGate.Cli
