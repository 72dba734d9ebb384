/-!
# A place in a YAML text

The cursor knows the text that is still to be read and where it stands: the index of the next
character, its line and its column. Line ends are line feeds, carriage returns, both together,
and the separators U+0085, U+2028 and U+2029.
-/

namespace PuzzleGate.Yaml

structure Cursor where
  rest : List Char
  index : Nat
  line : Nat
  column : Nat

def isBreak (c : Char) : Bool :=
  c = '\n' || c = '\r' || c = '\x85' || c = '\u2028' || c = '\u2029'

def isGap (c : Char) : Bool := c = ' ' || c = '\t'

/-- The characters of names: of anchors, directives and tag handles. -/
def isWordChar (c : Char) : Bool :=
  ('0' ≤ c && c ≤ '9') || ('a' ≤ c && c ≤ 'z') || ('A' ≤ c && c ≤ 'Z') || c = '_' || c = '-'

/-- Whether a blank, a line end or the end of the text stands here. -/
def endsWord : List Char → Bool
  | [] => true
  | c :: _ => isGap c || isBreak c

namespace Cursor

def ofText (text : List Char) : Cursor := ⟨text, 0, 0, 0⟩

def peek? (cursor : Cursor) : Option Char := cursor.rest.head?

def sees (cursor : Cursor) (c : Char) : Bool := cursor.peek? == some c

def atEnd (cursor : Cursor) : Bool := cursor.rest.isEmpty

def atBreak (cursor : Cursor) : Bool := cursor.peek?.any isBreak

def atGap (cursor : Cursor) : Bool := cursor.peek?.any isGap

/-- Behind `n` characters, none of which ends a line. -/
def skip (cursor : Cursor) (n : Nat) : Cursor :=
  { cursor with
    rest := cursor.rest.drop n, index := cursor.index + n, column := cursor.column + n }

/-- Behind the characters that satisfy the test, none of which ends a line. -/
def skipWhile (cursor : Cursor) (test : Char → Bool) : Cursor :=
  cursor.skip (cursor.rest.takeWhile test).length

def skipBreak (cursor : Cursor) : Cursor :=
  match cursor.rest with
  | '\r' :: '\n' :: rest => ⟨rest, cursor.index + 2, cursor.line + 1, 0⟩
  | _ :: rest => ⟨rest, cursor.index + 1, cursor.line + 1, 0⟩
  | [] => cursor

def breakChar (cursor : Cursor) : Char :=
  match cursor.peek? with
  | some '\u2028' => '\u2028'
  | some '\u2029' => '\u2029'
  | _ => '\n'

def skipGapsAndComment (cursor : Cursor) : Cursor :=
  let cursor := cursor.skipWhile isGap
  if cursor.sees '#' then cursor.skipWhile fun c => !isBreak c else cursor

/-- Whether the line starts with this mark of a document boundary. -/
def atMark (cursor : Cursor) (c : Char) : Bool :=
  cursor.column == 0 && cursor.rest.take 3 == [c, c, c] && endsWord (cursor.rest.drop 3)

def atBoundary (cursor : Cursor) : Bool := cursor.atMark '-' || cursor.atMark '.'

end Cursor

end PuzzleGate.Yaml
