/-!
# How processes end

A process ends by itself, with an exit code, or by a signal. Only the exit code zero is a success.
-/

namespace PuzzleGate.Command

inductive Status where
  | exited (code : Nat)
  | killed (signal : Nat)
deriving DecidableEq, Repr

def signalNames : List String :=
  ["HUP", "INT", "QUIT", "ILL", "TRAP", "ABRT", "BUS", "FPE", "KILL", "USR1", "SEGV", "USR2",
    "PIPE", "ALRM", "TERM", "STKFLT", "CHLD", "CONT", "STOP", "TSTP", "TTIN", "TTOU", "URG", "XCPU",
    "XFSZ", "VTALRM", "PROF", "WINCH", "IO", "PWR", "SYS"]

def signalName? : Nat → Option String
  | 0 => none
  | number + 1 => signalNames[number]?

def signalOfName? (name : String) : Option Nat := (signalNames.idxOf? name).map (· + 1)

def harmlessSignals : List Nat := [0, 17, 18, 23, 28]

namespace Status

def isSuccess (status : Status) : Bool := status == .exited 0

def message : Status → String
  | .exited code => s!"exit status: {code}"
  | .killed signal => match signalName? signal with
    | some name => s!"signal: {signal} (SIG{name})"
    | none => s!"signal: {signal}"

end Status

/-- What a process left behind. -/
structure Ended where
  status : Status
  output : List UInt8
  errors : List UInt8
  /-- The part of its standard input that it did not read. -/
  unread : List UInt8

end PuzzleGate.Command
