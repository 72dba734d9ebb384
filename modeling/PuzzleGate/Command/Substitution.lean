import PuzzleGate.Command.Utility

/-!
# Substitution in lines

`sed` with the command `s` puts a replacement for what a pattern matches in each line. Patterns
are made of single bytes, of dots, which match any byte, and of stars, which repeat what stands
before them; they may be tied to either end of the line.
-/

namespace PuzzleGate.Command

/-- One step of a pattern. -/
structure Atom where
  /-- The byte it matches; absent, any. -/
  byte : Option UInt8
  repeated : Bool

def Atom.accepts (atom : Atom) (b : UInt8) : Bool := atom.byte.all (· == b)

/-- A part of a replacement. -/
inductive Filling where
  | byte (b : UInt8)
  /-- What the pattern matched. -/
  | whole

structure Substitution where
  atStart : Bool
  atoms : List Atom
  atEnd : Bool
  replacement : List Filling
  everywhere : Bool

/-- The length of the match at the front, with repetitions as long as the rest allows. -/
def frontMatch (atEnd : Bool) : List Atom → List UInt8 → Option Nat
  | [], rest => if atEnd && !rest.isEmpty then none else some 0
  | atom :: atoms, rest =>
    if atom.repeated then
      (List.range ((rest.takeWhile atom.accepts).length + 1)).reverse.findSome? fun count =>
        (frontMatch atEnd atoms (rest.drop count)).map (· + count)
    else match rest with
      | [] => none
      | b :: rest =>
        if atom.accepts b then (frontMatch atEnd atoms rest).map (· + 1) else none

namespace Substitution

def fill (substitution : Substitution) (matched : List UInt8) : List UInt8 :=
  substitution.replacement.flatMap fun
    | .byte b => [b]
    | .whole => matched

/-- Where the walk through a line is. -/
inductive Walk where
  /-- At the start of the line. -/
  | start
  /-- Behind a byte that was kept. -/
  | kept
  /-- Behind a match, or inside it. -/
  | replaced
  /-- Behind the only match that counts. -/
  | spent

def matchHere? (substitution : Substitution) (walk : Walk) (rest : List UInt8) : Option Nat :=
  let found := frontMatch substitution.atEnd substitution.atoms rest
  match walk with
  | .start => found
  | .kept => if substitution.atStart then none else found
  | .replaced => if substitution.atStart then none else found.filter (0 < ·)
  | .spent => none

/-- Where the walk is behind a match, and behind a byte that it keeps there. -/
def behind (substitution : Substitution) (walk : Walk) : Walk :=
  if substitution.everywhere then walk else .spent

def Walk.keep : Walk → Walk
  | .spent => .spent
  | _ => .kept

/-- The rest of a line after the substitution; `skip` bytes of it belong to a match. -/
def apply (substitution : Substitution) : (skip : Nat) → Walk → List UInt8 → List UInt8
  | _, walk, [] => match substitution.matchHere? walk [] with
    | some _ => substitution.fill []
    | none => []
  | skip + 1, walk, _ :: rest => substitution.apply skip walk rest
  | 0, walk, b :: rest => match substitution.matchHere? walk (b :: rest) with
    | some 0 => substitution.fill [] ++
        b :: substitution.apply 0 (substitution.behind .kept) rest
    | some (length + 1) => substitution.fill ((b :: rest).take (length + 1)) ++
        substitution.apply length (substitution.behind .replaced) rest
    | none => b :: substitution.apply 0 walk.keep rest

/-- The fields of a command: the texts between its delimiters, in which escaped delimiters have
lost their backslash. -/
def fields (delimiter : Char) : List Char → List (List Char)
  | [] => [[]]
  | '\\' :: c :: rest => match fields delimiter rest with
    | field :: more => (if c = delimiter then c :: field else '\\' :: c :: field) :: more
    | [] => []
  | c :: rest =>
    if c = delimiter then [] :: fields delimiter rest
    else match fields delimiter rest with
      | field :: more => (c :: field) :: more
      | [] => []

def byteAtoms (c : Char) : List Atom :=
  (Text.Utf8.bytes (.singleton c)).map fun b => ⟨some b, false⟩

/-- Lets the last atom repeat; without any, a star stands for itself. -/
def repeatLast (atoms : List Atom) : List Atom :=
  match atoms.getLast? with
  | some atom => atoms.dropLast ++ [{ atom with repeated := true }]
  | none => byteAtoms '*'

def readAtoms (atoms : List Atom) : List Char → List Atom
  | [] => atoms
  | '\\' :: 'n' :: rest => readAtoms (atoms ++ byteAtoms '\n') rest
  | '\\' :: c :: rest => readAtoms (atoms ++ byteAtoms c) rest
  | '.' :: rest => readAtoms (atoms ++ [⟨none, false⟩]) rest
  | '*' :: rest => readAtoms (repeatLast atoms) rest
  | c :: rest => readAtoms (atoms ++ byteAtoms c) rest

def readFillings : List Char → List Filling
  | [] => []
  | '\\' :: 'n' :: rest => .byte 10 :: readFillings rest
  | '\\' :: c :: rest => (Text.Utf8.bytes (.singleton c)).map .byte ++ readFillings rest
  | '&' :: rest => .whole :: readFillings rest
  | c :: rest => (Text.Utf8.bytes (.singleton c)).map .byte ++ readFillings rest

/-- Reads the command `s` with its fields. -/
def ofCommand? (command : String) : Option Substitution :=
  match command.toList with
  | 's' :: delimiter :: rest => match fields delimiter rest with
    | [pattern, replacement, flags] =>
      if flags = [] || flags = ['g'] then
        let atStart := pattern.head? == some '^'
        let body := if atStart then pattern.tail else pattern
        let atEnd := body.getLast? == some '$'
        some
          { atStart, atEnd
            atoms := readAtoms [] (if atEnd then body.dropLast else body)
            replacement := readFillings replacement
            everywhere := !flags.isEmpty }
      else none
    | _ => none
  | _ => none

end Substitution

/-- Changes every line of a byte sequence and leaves their ends alone. -/
def mapLines (change : List UInt8 → List UInt8) (line : List UInt8) : List UInt8 → List UInt8
  | [] => if line.isEmpty then [] else change line.reverse
  | b :: rest =>
    if b = 10 then change line.reverse ++ 10 :: mapLines change [] rest
    else mapLines change (b :: line) rest

def sed : Utility := fun task =>
  match task.arguments.filter fun argument => argument ≠ "-e" with
  | [] => task.refuses 1 "no script"
  | command :: files => match Substitution.ofCommand? command with
    | none => task.refuses 1 "-e expression #1, char 1: unknown command"
    | some substitution =>
      let whole := task.concatenate files
      { whole with output := mapLines (substitution.apply 0 .start) [] whole.output }

end PuzzleGate.Command
