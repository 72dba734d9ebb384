import PuzzleGate.Command.Utility

/-!
# Utilities that print their arguments

`echo` prints its arguments as one line and `printf` prints them in the places that a format has
for them. Escapes begin with a backslash; an octal number in an escape is the value of a byte.
-/

namespace PuzzleGate.Command

def escapedByte? : Char → Option UInt8
  | 'a' => some 7
  | 'b' => some 8
  | 't' => some 9
  | 'n' => some 10
  | 'v' => some 11
  | 'f' => some 12
  | 'r' => some 13
  | '\\' => some 92
  | _ => none

def octalDigit? (c : Char) : Option Nat :=
  if '0' ≤ c && c ≤ '7' then some (c.toNat - '0'.toNat) else none

/-- How far the reader of a printed text is. -/
inductive Pending where
  | nothing
  | backslash
  /-- Inside an octal number that may have this many more digits. -/
  | octal (left value : Nat)
  /-- Behind a percent sign. -/
  | percent
  /-- Nothing more is to be printed. -/
  | stopped

/-- What a format prints next. -/
inductive Piece where
  | byte (b : UInt8)
  /-- The next argument, converted as the letter says. -/
  | argument (conversion : Char)

/-- Which escapes and places a text may have. -/
structure Dialect where
  /-- Whether octal numbers begin with a zero that is not one of their three digits. -/
  zeroLed : Bool
  /-- Whether there are places for arguments. -/
  hasPlaces : Bool

structure Reader where
  pieces : List Piece
  pending : Pending

namespace Reader

def add (reader : Reader) (text : String) : Reader :=
  ⟨reader.pieces ++ (Text.Utf8.bytes text).map .byte, .nothing⟩

def addByte (reader : Reader) (value : Nat) : Reader :=
  ⟨reader.pieces ++ [.byte value.toUInt8], .nothing⟩

def plain (dialect : Dialect) (reader : Reader) (c : Char) : Reader :=
  if c = '\\' then { reader with pending := .backslash }
  else if c = '%' && dialect.hasPlaces then { reader with pending := .percent }
  else reader.add (.singleton c)

def step (dialect : Dialect) (reader : Reader) (c : Char) : Reader :=
  match reader.pending with
  | .stopped => reader
  | .nothing => reader.plain dialect c
  | .percent =>
    if c = '%' then reader.add "%" else ⟨reader.pieces ++ [.argument c], .nothing⟩
  | .backslash =>
    if c = 'c' then { reader with pending := .stopped }
    else match escapedByte? c, octalDigit? c with
      | some b, _ => reader.addByte b.toNat
      | none, some digit =>
        if dialect.zeroLed then
          if digit = 0 then { reader with pending := .octal 3 0 }
          else (reader.add "\\").plain dialect c
        else { reader with pending := .octal 2 digit }
      | none, none =>
        if c = '"' && dialect.hasPlaces then reader.add "\"" else (reader.add "\\").plain dialect c
  | .octal left value => match left, octalDigit? c with
    | left + 1, some digit =>
      if left = 0 then reader.addByte (value * 8 + digit)
      else { reader with pending := .octal left (value * 8 + digit) }
    | _, _ => (reader.addByte value).plain dialect c

def read (dialect : Dialect) (text : String) : Reader :=
  let reader := text.toList.foldl (step dialect) ⟨[], .nothing⟩
  match reader.pending with
  | .backslash => reader.add "\\"
  | .octal _ value => reader.addByte value
  | .percent => reader.add "%"
  | .nothing | .stopped => reader

end Reader

def argumentDialect : Dialect := ⟨true, false⟩

def formatDialect : Dialect := ⟨false, true⟩

def plainBytes (pieces : List Piece) : List UInt8 :=
  pieces.filterMap fun
    | .byte b => some b
    | .argument _ => none

/-- Prints its arguments; escapes count when `escaped` says so. -/
def echo (escaped : Bool) : Utility := fun task =>
  let (arguments, ending) := match task.arguments with
    | "-n" :: rest => (rest, "")
    | arguments => (arguments, "\n")
  let text := " ".intercalate arguments
  if escaped then
    let reader := Reader.read argumentDialect text
    match reader.pending with
    | .stopped => task.prints (plainBytes reader.pieces)
    | _ => task.prints (plainBytes reader.pieces ++ Text.Utf8.bytes ending)
  else task.prints (Text.Utf8.bytes (text ++ ending))

def convert (conversion : Char) (argument : String) : List UInt8 :=
  match conversion with
  | 'b' => plainBytes (Reader.read argumentDialect argument).pieces
  | 'c' => Text.Utf8.bytes (.ofList (argument.toList.take 1))
  | 'd' | 'i' => Text.Utf8.bytes (toString (argument.toInt?.getD 0))
  | _ => Text.Utf8.bytes argument

/-- Prints the pieces once, with arguments for the places as far as there are any. -/
def printOnce : List Piece → List String → List UInt8
  | [], _ => []
  | .byte b :: pieces, arguments => b :: printOnce pieces arguments
  | .argument conversion :: pieces, arguments =>
    convert conversion (arguments.head?.getD "") ++ printOnce pieces arguments.tail

def places (pieces : List Piece) : Nat :=
  (pieces.filter fun
    | .byte _ => false
    | .argument _ => true).length

def printf : Utility := fun task =>
  match task.arguments with
  | [] => task.refuses 2 "usage: printf format [arg ...]"
  | format :: arguments =>
    let pieces := (Reader.read formatDialect format).pieces
    let count := places pieces
    let rounds := if count = 0 then 1 else max 1 ((arguments.length + count - 1) / count)
    task.prints <| (List.range rounds).flatMap fun round =>
      printOnce pieces (arguments.drop (round * count))

end PuzzleGate.Command
