/-!
# Element calls

Compiled documents render an element by a call: one of two wrappers, an opening parenthesis, and
an operand that names the element in one of three shapes. `wrap` writes a call from its parts and
`normalize` recovers the element's name from the text of a call.
-/

namespace PuzzleGate.Call

/-- The functions that render an element: with several children, or with at most one. -/
inductive Wrapper where
  | multi
  | single
deriving DecidableEq, Repr

def Wrapper.opening : Wrapper → List Char
  | .multi => "_jsxs(".toList
  | .single => "_jsx(".toList

/-- How the operand names the element: as a member of the components table, as a quoted tag, or
as a plain identifier. -/
inductive Shape where
  | member
  | literal
  | ident
deriving DecidableEq, Repr

def components : List Char := "_components.".toList

def isNameChar (c : Char) : Bool :=
  ('a' ≤ c && c ≤ 'z') || ('A' ≤ c && c ≤ 'Z') || ('0' ≤ c && c ≤ '9') || c = '_' || c = '-'

def Shape.operand (name : List Char) : Shape → List Char
  | .member => components ++ name
  | .literal => '"' :: name ++ ['"']
  | .ident => name

def wrapChars (wrapper : Wrapper) (shape : Shape) (name : List Char) : List Char :=
  wrapper.opening ++ shape.operand name

def wrap (wrapper : Wrapper) (shape : Shape) (name : String) : String :=
  .ofList (wrapChars wrapper shape name.toList)

def stripOpening (raw : List Char) : List Char :=
  match Wrapper.multi.opening.isPrefixOf? raw with
  | some operand => operand
  | none => (Wrapper.single.opening.isPrefixOf? raw).getD raw

/-- The inside of a text that starts with one quote and ends with another. -/
def unquote? : List Char → Option (List Char)
  | '"' :: rest => if rest.getLast? = some '"' then some rest.dropLast else none
  | _ => none

/-- The name that an operand gives: quotes are taken off, else the mark of the components table,
and only one of the two. -/
def operandName (operand : List Char) : List Char :=
  match unquote? operand with
  | some name => name
  | none => (components.isPrefixOf? operand).getD operand

/-- The element's name in the text of a call; other texts are treated as far as they fit. -/
def normalizeChars (raw : List Char) : List Char :=
  operandName (stripOpening raw)

def normalize (raw : String) : String :=
  .ofList (normalizeChars raw.toList)

end PuzzleGate.Call
