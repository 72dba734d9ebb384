import PuzzleGate.Call.Scan

/-!
# Calls as a regular expression

The calls of a text can also be described by one regular expression. Its meaning is the one that
backtracking gives: alternatives are tried in their order and a repetition takes as much as it
can, and the first attempt that succeeds is the match, whether or not another one is longer. The
parts of a call are read off the groups that took part in the match.
-/

namespace PuzzleGate.Call

/-- Regular expressions with named groups. None of those used here matches the empty text. -/
inductive Pattern where
  | text (chars : List Char)
  /-- One or more characters of a class, as many as possible. -/
  | oneOrMore (accepts : Char → Bool)
  | seq (first second : Pattern)
  | either (first second : Pattern)
  | group (name : String) (body : Pattern)

/-- A way to match the front of a text. -/
structure Attempt where
  taken : List Char
  /-- The groups that took part, with what they took. -/
  groups : List (String × List Char)
  rest : List Char
deriving DecidableEq, Repr

namespace Pattern

/-- The ways to match the front of a text, in the order in which backtracking tries them. -/
def attempts : Pattern → List Char → List Attempt
  | .text chars, s => match chars.isPrefixOf? s with
    | some rest => [⟨chars, [], rest⟩]
    | none => []
  | .oneOrMore accepts, s =>
    (List.range (s.takeWhile accepts).length).reverse.map fun n =>
      ⟨s.take (n + 1), [], s.drop (n + 1)⟩
  | .seq first second, s =>
    (first.attempts s).flatMap fun a =>
      (second.attempts a.rest).map fun b => ⟨a.taken ++ b.taken, a.groups ++ b.groups, b.rest⟩
  | .either first second, s => first.attempts s ++ second.attempts s
  | .group name body, s =>
    (body.attempts s).map fun a => ⟨a.taken, (name, a.taken) :: a.groups, a.rest⟩

def front? (pattern : Pattern) (s : List Char) : Option Attempt := (pattern.attempts s).head?

/-- The matches in a text whose first `skip` characters belong to a match already found, each with
the byte at which it begins. -/
def matchesFrom (pattern : Pattern) : (skip position : Nat) → List Char → List (Nat × Attempt)
  | _, _, [] => []
  | skip + 1, position, c :: rest => pattern.matchesFrom skip (position + c.utf8Size) rest
  | 0, position, c :: rest =>
    match pattern.front? (c :: rest) with
    | some attempt =>
      (position, attempt) ::
        pattern.matchesFrom (attempt.taken.length - 1) (position + c.utf8Size) rest
    | none => pattern.matchesFrom 0 (position + c.utf8Size) rest

/-- The first match in a text, with the byte at which it begins. -/
def search? (pattern : Pattern) : (position : Nat) → List Char → Option (Nat × Attempt)
  | _, [] => none
  | position, c :: rest =>
    match pattern.front? (c :: rest) with
    | some attempt => some (position, attempt)
    | none => pattern.search? (position + c.utf8Size) rest

/-- Whether the text has a match; which one it is does not matter. -/
def occursIn (pattern : Pattern) : List Char → Bool
  | [] => false
  | c :: rest => !(pattern.attempts (c :: rest)).isEmpty || pattern.occursIn rest

end Pattern

def namePattern : Pattern := .oneOrMore isNameChar

/-- The name of the group in which an operand of the shape stands. -/
def Shape.group : Shape → String
  | .member => "member"
  | .literal => "literal"
  | .ident => "ident"

def Shape.pattern : Shape → Pattern
  | .member => .seq (.text components) namePattern
  | .literal => .seq (.text ['"']) (.seq namePattern (.text ['"']))
  | .ident => namePattern

def wrapperGroup : String := "wrapper"

def openingPattern : Pattern :=
  .seq (.group wrapperGroup (.either (.text "_jsxs".toList) (.text "_jsx".toList))) (.text ['('])

def operandPattern : Pattern :=
  .either (.group Shape.member.group Shape.member.pattern) <|
    .either (.group Shape.literal.group Shape.literal.pattern)
      (.group Shape.ident.group Shape.ident.pattern)

def callPattern : Pattern := .seq openingPattern operandPattern

def Attempt.wrapper? (attempt : Attempt) : Option Wrapper :=
  (attempt.groups.lookup wrapperGroup).map fun called =>
    if called = "_jsxs".toList then .multi else .single

def Attempt.shape? (attempt : Attempt) : Option Shape :=
  [Shape.member, .literal, .ident].find? fun shape => (attempt.groups.lookup shape.group).isSome

def classify (position : Nat) (attempt : Attempt) : Option Match := do
  let wrapper ← attempt.wrapper?
  let shape ← attempt.shape?
  return ⟨position, wrapper, shape, .ofList attempt.taken⟩

def matchAll (text : String) : List Match :=
  (callPattern.matchesFrom 0 0 text.toList).filterMap fun (position, attempt) =>
    classify position attempt

def firstMatch? (text : String) : Option Match :=
  (callPattern.search? 0 text.toList).bind fun (position, attempt) => classify position attempt

def isMatch (text : String) : Bool := callPattern.occursIn text.toList

end PuzzleGate.Call
