import PuzzleGate.Json.Token

/-!
# JSON text as far as it can be read

A text is read into a tree that keeps what stands before its first fault, so that a reader which
expects a certain shape meets problems in the order of the text: a wrong kind of value before a
later fault is reported as such. `build` is a machine with a stack of open arrays and objects that
takes one token at a time.
-/

namespace PuzzleGate.Json

inductive Tree where
  | null
  | bool (b : Bool)
  | number (n : Numeral)
  | string (s : Option String)
  /-- The items read; `closed` says whether the closing bracket was reached. -/
  | array (items : List Tree) (closed : Bool)
  /-- The members read; the value of the last is `broken` when only its key was reached. -/
  | object (members : List (Option String × Tree)) (closed : Bool)
  /-- No value could be read. -/
  | broken

instance : Inhabited Tree := ⟨.broken⟩

/-- An open array or object with what it holds so far, latest first. -/
inductive Frame where
  | items (before : List Tree)
  | members (before : List (Option String × Tree))
  /-- An object in which a key was read and its value is due. -/
  | value (before : List (Option String × Tree)) (key : Option String)

/-- What may come next inside the innermost frame. -/
inductive Expect where
  | value
  | valueOrClose
  | key
  | keyOrClose
  | colon
  | commaOrClose
deriving DecidableEq

/-- The state of reading: either inside the open frames, or after the value. -/
inductive State where
  | reading (stack : List Frame) (expect : Expect)
  | done (tree : Tree)

def State.put (tree : Tree) : List Frame → State
  | [] => .done tree
  | .items before :: stack => .reading (.items (tree :: before) :: stack) .commaOrClose
  | .members before :: stack => .reading (.members before :: stack) .commaOrClose
  | .value before key :: stack =>
    .reading (.members ((key, tree) :: before) :: stack) .commaOrClose

def Token.leaf? : Token → Option Tree
  | .null => some .null
  | .bool b => some (.bool b)
  | .number n => some (.number n)
  | .string s => some (.string s)
  | _ => none

def State.start (stack : List Frame) (token : Token) : Option State :=
  match token with
  | .openArray => some (.reading (.items [] :: stack) .valueOrClose)
  | .openObject => some (.reading (.members [] :: stack) .keyOrClose)
  | token => token.leaf?.map (State.put · stack)

def State.close (stack : List Frame) (token : Token) : Option State :=
  match stack, token with
  | .items before :: stack, .closeArray => some (.put (.array before.reverse true) stack)
  | .members before :: stack, .closeObject => some (.put (.object before.reverse true) stack)
  | _, _ => none

def State.takeKey (stack : List Frame) (token : Token) : Option State :=
  match stack, token with
  | .members before :: stack, .string key => some (.reading (.value before key :: stack) .colon)
  | _, _ => none

/-- One token further; none when the token cannot stand here. -/
def State.step (token : Token) : State → Option State
  | .done _ => none
  | .reading stack .value => State.start stack token
  | .reading stack .valueOrClose => (State.close stack token).or (State.start stack token)
  | .reading stack .key => State.takeKey stack token
  | .reading stack .keyOrClose => (State.close stack token).or (State.takeKey stack token)
  | .reading stack .colon =>
    if token = .colon then some (.reading stack .value) else none
  | .reading stack .commaOrClose =>
    match stack, token with
    | .items _ :: _, .comma => some (.reading stack .value)
    | .members _ :: _, .comma => some (.reading stack .key)
    | stack, token => State.close stack token

def collapse (inner : Tree) : List Frame → Tree
  | [] => inner
  | .items before :: stack => collapse (.array (inner :: before).reverse false) stack
  | .members before :: stack => collapse (.object before.reverse false) stack
  | .value before key :: stack => collapse (.object ((key, inner) :: before).reverse false) stack

def State.stop : State → Tree
  | .done tree => tree
  | .reading [] _ => .broken
  | .reading (.items before :: stack) _ => collapse (.array before.reverse false) stack
  | .reading (.members before :: stack) _ => collapse (.object before.reverse false) stack
  | .reading (.value before key :: stack) _ =>
    collapse (.object ((key, .broken) :: before).reverse false) stack

def State.isDone : State → Bool
  | .done _ => true
  | .reading .. => false

/-- Reads on from a state; also says whether the tokens were exactly one value. -/
def build (state : State) : List Token → Tree × Bool
  | [] => (state.stop, state.isDone)
  | token :: tokens =>
    match state.step token with
    | some next => build next tokens
    | none => (state.stop, false)

def readTree (text : String) : Tree × Bool :=
  build (.reading [] .value) (tokens text.toList)

mutual

/-- The value of a tree in which arrays and objects are nested at most `depth` deep; none when a
part is unfinished, too deep, or is a number or string that denotes nothing. -/
def Tree.value? (depth : Nat) : Tree → Option Value
  | .null => some .null
  | .bool b => some (.bool b)
  | .number n => n.number?.map .number
  | .string s => s.map .string
  | .array items closed =>
    if closed && 0 < depth then (itemValues? (depth - 1) items).map .array else none
  | .object members closed =>
    if closed && 0 < depth then
      (memberValues? (depth - 1) members).map fun fields => .object (orderFields fields)
    else none
  | .broken => none

def itemValues? (depth : Nat) : List Tree → Option (List Value)
  | [] => some []
  | tree :: rest => do
    let value ← tree.value? depth
    let values ← itemValues? depth rest
    return value :: values

def memberValues? (depth : Nat) : List (Option String × Tree) → Option (List (String × Value))
  | [] => some []
  | (key, tree) :: rest => do
    let key ← key
    let value ← tree.value? depth
    let fields ← memberValues? depth rest
    return (key, value) :: fields

end

def maxDepth : Nat := 127

def parse? (text : String) : Option Value :=
  match readTree text with
  | (tree, true) => tree.value? maxDepth
  | (_, false) => none

end PuzzleGate.Json
