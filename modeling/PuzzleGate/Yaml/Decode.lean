import PuzzleGate.Yaml.Scalar

/-!
# Reading YAML text into records

Readers take a node and give the thing they read, or the first problem in the order of the text
together with its location. Fields that hold text take any scalar as it is written.
-/

namespace PuzzleGate.Yaml

open Reading

/-- A step from a collection to one of its parts. -/
inductive Step where
  | field (name : String)
  | item (index : Nat)
  /-- The value of a key that is not written out. -/
  | unnamed
deriving DecidableEq, Repr

/-- A problem and where it was met, outermost step first. -/
structure Located where
  location : List Step
  problem : Problem
deriving DecidableEq, Repr

def locationText : List Step → String
  | [] => ""
  | .field name :: rest => name ++ more rest
  | .item index :: rest => s!".[{index}]" ++ more rest
  | .unnamed :: rest => "?" ++ more rest
where
  more : List Step → String
    | [] => ""
    | .field name :: rest => "." ++ name ++ more rest
    | .item index :: rest => s!"[{index}]" ++ more rest
    | .unnamed :: rest => ".?" ++ more rest

/-- The location stands before the problem, unless the text is not in the format at all. -/
def Located.message (located : Located) : String :=
  match located.location, located.problem with
  | [], problem | _, problem@.malformed => problem.message
  | location, problem => locationText location ++ ": " ++ problem.message

abbrev Reader (α : Type) := Document → List Step → Node → Except Located α

/-- The problem of meeting this node where something else is expected. -/
def Node.unexpected (expected : Expected) : Node → Problem
  | .scalar s => match s.meaning? with
    | some meaning => .mismatch meaning.found expected
    | none => .malformed
  | .sequence .. => .mismatch .sequence expected
  | .mapping .. => .mismatch .map expected
  | .alias _ | .absent | .broken => .malformed

def fail {α : Type} (location : List Step) (problem : Problem) : Except Located α :=
  .error ⟨location, problem⟩

def readText (expected : Expected) : Reader String := fun document location node =>
  match document.resolve node with
  | .scalar scalar => .ok scalar.text
  | node => fail location (node.unexpected expected)

/-- Reads a text that may be absent: not written, or null. -/
def readOptional (expected : Expected) : Reader (Option String) := fun document location node =>
  match document.resolve node with
  | .absent => .ok none
  | .scalar scalar =>
    if scalar.style != .plain then .ok (some scalar.text)
    else match scalar.tag with
      | none => .ok (if scalar.text == "" || isNull scalar.text then none else some scalar.text)
      | some tag =>
        if tag = standardTag "null" then
          if isNull scalar.text then .ok none else fail location .malformed
        else .ok (some scalar.text)
  | node => fail location (node.unexpected expected)

def readSize : Reader Nat := fun document location node =>
  match document.resolve node with
  | .scalar scalar =>
    let written := scalar.style == .plain ||
      (scalar.style == .literal && scalar.tag == some (standardTag "int"))
    match (natural? scalar.text.toList).filter (· < 0x10000000000000000) with
    | some n => if written then .ok n else fail location ((Node.scalar scalar).unexpected .size)
    | none => fail location ((Node.scalar scalar).unexpected .size)
  | node => fail location (node.unexpected .size)

def readItems {α : Type} (item : Reader α) (document : Document) (location : List Step) :
    (index : Nat) → List Node → Except Located (List α)
  | _, [] => .ok []
  | index, node :: rest => do
    let value ← item document (location ++ [.item index]) node
    let values ← readItems item document location (index + 1) rest
    return value :: values

/-- Reads a list; a value that is not written is the empty list. -/
def readList {α : Type} (item : Reader α) : Reader (List α) := fun document location node =>
  match document.resolve node with
  | .sequence _ items closed => do
    let values ← readItems item document location 0 items
    if closed then return values else fail location .malformed
  | .absent => .ok []
  | .scalar scalar =>
    if scalar.isEmpty then .ok []
    else fail location ((Node.scalar scalar).unexpected .sequence)
  | node => fail location (node.unexpected .sequence)

def readKey (document : Document) (location : List Step) (node : Node) :
    Except Located (String × Step) :=
  match node, document.resolve node with
  | .scalar _, .scalar scalar => .ok (scalar.text, .field scalar.text)
  | _, .scalar scalar => .ok (scalar.text, .unnamed)
  | _, _ => fail location .malformed

/-- Reads a record field by field into a draft; a value that is not written leaves the draft as it
is. `take` gets the location of the record, the key, and the location of its value. -/
def readRecord {α : Type} (name : String) (draft : α)
    (take : Document → List Step → α → String → List Step → Node → Except Located α) :
    Reader α := fun document location node =>
  match document.resolve node with
  | .mapping _ entries closed => do
    let draft ← entries.foldlM (fun draft (key, value) => do
      let (key, step) ← readKey document location key
      take document location draft key (location ++ [step]) value) draft
    if closed then return draft else fail location .malformed
  | .absent => .ok draft
  | .scalar scalar =>
    if scalar.isEmpty then .ok draft
    else fail location ((Node.scalar scalar).unexpected (.record name))
  | node => fail location (node.unexpected (.record name))

def readOnce {α : Type} (location : List Step) (name : String) (given : Option α)
    (value : Except Located α) : Except Located (Option α) :=
  if given.isSome then fail location (.duplicateField name) else some <$> value

/-- Reads a whole text with a reader; it must hold one document and nothing else. -/
def decode {α : Type} (reader : Reader α) (text : String) : Except Located α := do
  let document := readDocument text
  let value ← reader document [] document.root
  if document.finished then return value else fail [] .malformed

/-! ## Documents of several shapes -/

/-- Plain data, as far as the choice between shapes looks at it. -/
inductive Data where
  | string (s : String)
  | natural (n : Nat)
  /-- A scalar of any other kind. -/
  | other
  | list (items : List Data)
  | map (entries : List (Data × Data))

def maxNesting : Nat := 128

/-- How often, for each event of the document, an alias may be followed. -/
def maxJumpsPerEvent : Nat := 100

abbrev DataReader := StateT Nat (Except Problem)

def isOwnTag (tag : Option String) : Bool :=
  tag.any fun tag => tag.toList.head? == some '!'

/-- What an alias stands for; every step costs one jump. -/
def followAlias (document : Document) : Node → DataReader Node
  | .alias id => do
    let jumps ← get
    if maxJumpsPerEvent * document.size ≤ jumps then throw .malformed
    set (jumps + 1)
    return document.resolve (.alias id)
  | node => return node

def scalarData (scalar : Scalar) : DataReader Data :=
  if isOwnTag scalar.tag then throw .malformed
  else match scalar.meaning? with
    | some (.string s) => return .string s
    | some (.integer n) =>
      return if 0 ≤ n && n < 0x10000000000000000 then .natural n.toNat else .other
    | some _ => return .other
    | none => throw .malformed

/-- Reads the data of a node whose collections are nested at most `depth` deep. -/
def readData (document : Document) : (depth : Nat) → Node → DataReader Data
  | 0, node => do
    match ← followAlias document node with
    | .scalar scalar => scalarData scalar
    | .absent => return .other
    | _ => throw .malformed
  | depth + 1, node => do
    match ← followAlias document node with
    | .scalar scalar => scalarData scalar
    | .absent => return .other
    | .sequence tag items closed =>
      if isOwnTag tag then throw .malformed
      let items ← items.mapM (readData document depth)
      if closed then return .list items else throw .malformed
    | .mapping tag entries closed =>
      if isOwnTag tag then throw .malformed
      let entries ← entries.mapM fun (key, value) => do
        return (← readData document depth key, ← readData document depth value)
      if closed then return .map entries else throw .malformed
    | .alias _ | .broken => throw .malformed

def decodeData {α : Type} (make : Data → Except Problem α) (text : String) :
    Except Problem α := do
  let document := readDocument text
  let (data, _) ← (readData document maxNesting document.root).run 0
  let value ← make data
  if document.finished then return value else throw .malformed

end PuzzleGate.Yaml
