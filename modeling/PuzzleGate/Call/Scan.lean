import PuzzleGate.Call.Basic

/-!
# Finding the calls in a text

`scan` goes through a text from left to right. Where a call begins it takes the longest one, with
the member shape before the plain identifier, and goes on behind it; elsewhere it moves on by one
character. Positions count bytes of the UTF-8 form.
-/

namespace PuzzleGate.Call

/-- A call found in a text. -/
structure Match where
  /-- The byte at which the call begins. -/
  start : Nat
  wrapper : Wrapper
  shape : Shape
  text : String
deriving DecidableEq, Repr

def Match.stop (m : Match) : Nat := m.start + m.text.utf8ByteSize

def Match.name (m : Match) : String := normalize m.text

def frontName? (s : List Char) : Option (List Char) :=
  let name := s.takeWhile isNameChar
  if name.isEmpty then none else some name

def frontLiteral? : List Char → Option (List Char)
  | '"' :: rest =>
    (frontName? rest).bind fun name =>
      if (rest.drop name.length).head? = some '"' then some name else none
  | _ => none

def frontOperand? (s : List Char) : Option (Shape × List Char) :=
  match (components.isPrefixOf? s).bind frontName? with
  | some name => some (.member, name)
  | none => match frontLiteral? s with
    | some name => some (.literal, name)
    | none => (frontName? s).map (Shape.ident, ·)

def frontCall? (s : List Char) : Option (Wrapper × Shape × List Char) :=
  match Wrapper.multi.opening.isPrefixOf? s with
  | some rest => (frontOperand? rest).map (Wrapper.multi, ·)
  | none =>
    ((Wrapper.single.opening.isPrefixOf? s).bind frontOperand?).map (Wrapper.single, ·)

/-- The calls in a text whose first `skip` characters belong to a call already found. -/
def scanFrom : (skip position : Nat) → List Char → List Match
  | _, _, [] => []
  | skip + 1, position, c :: rest => scanFrom skip (position + c.utf8Size) rest
  | 0, position, c :: rest =>
    match frontCall? (c :: rest) with
    | some (wrapper, shape, name) =>
      let call := wrapChars wrapper shape name
      ⟨position, wrapper, shape, .ofList call⟩ ::
        scanFrom (call.length - 1) (position + c.utf8Size) rest
    | none => scanFrom 0 (position + c.utf8Size) rest

/-- All calls in a text, from left to right and without overlaps. -/
def scan (text : String) : List Match := scanFrom 0 0 text.toList

/-- The first call in a text whose first call is not before `position`. -/
def firstFrom? : (position : Nat) → List Char → Option Match
  | _, [] => none
  | position, c :: rest =>
    match frontCall? (c :: rest) with
    | some (wrapper, shape, name) =>
      some ⟨position, wrapper, shape, .ofList (wrapChars wrapper shape name)⟩
    | none => firstFrom? (position + c.utf8Size) rest

def first? (text : String) : Option Match := firstFrom? 0 text.toList

def occursIn : List Char → Bool
  | [] => false
  | c :: rest => (frontCall? (c :: rest)).isSome || occursIn rest

def occurs (text : String) : Bool := occursIn text.toList

end PuzzleGate.Call
