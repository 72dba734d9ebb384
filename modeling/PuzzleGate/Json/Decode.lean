import PuzzleGate.Json.Tree
import PuzzleGate.Reading.Problem

/-!
# Reading JSON text into records

Readers take the tree of a text and give the thing they read or the first problem. A part that is
unfinished is a problem only when the reader gets there, and a field that no reader asks for may
hold anything that has a beginning and an end.
-/

namespace PuzzleGate.Json

open Reading

def Number.found : Number → Found
  | .natural n _ => .integer n
  | .negative n _ => .integer (-(n : Int) - 1)
  | .real x => .real (.ofList x.text)

/-- The problem of meeting this tree where something else is expected. -/
def Tree.unexpected (expected : Expected) : Tree → Problem
  | .null => .mismatch .null expected
  | .bool b => .mismatch (.bool b) expected
  | .number n => match n.number? with
    | some n => .mismatch n.found expected
    | none => .malformed
  | .string (some s) => .mismatch (.string s) expected
  | .string none => .malformed
  | .array .. => .mismatch .sequence expected
  | .object .. => .mismatch .map expected
  | .broken => .malformed

def Tree.asString : Tree → Except Problem String
  | .string (some s) => .ok s
  | tree => .error (tree.unexpected .string)

def requireClosed (closed : Bool) : Except Problem Unit :=
  if closed then .ok () else .error .malformed

def Tree.asList {α : Type} (item : Tree → Except Problem α) : Tree → Except Problem (List α)
  | .array items closed => do
    let values ← items.mapM item
    requireClosed closed
    return values
  | tree => .error (tree.unexpected .sequence)

def Tree.asOption {α : Type} (some? : Tree → Except Problem α) : Tree → Except Problem (Option α)
  | .null => .ok none
  | tree => some <$> some? tree

/-- Reads any value with at most `depth` levels of arrays and objects. -/
def Tree.asValue (depth : Nat) (tree : Tree) : Except Problem Value :=
  match tree.value? depth with
  | some value => .ok value
  | none => .error .malformed

/-- Sets a field of a record under construction, which must not have a value yet. -/
def setOnce {α : Type} (name : String) (field : Option α) (value : Except Problem α) :
    Except Problem (Option α) :=
  if field.isSome then .error (.duplicateField name) else some <$> value

/-- A field that must have been given. -/
def require {α : Type} (name : String) : Option α → Except Problem α
  | some value => .ok value
  | none => .error (.missingField name)

/-- Reads the members of an object one after the other into a record under construction. -/
def Tree.foldMembers {α : Type} (take : α → String → Tree → Except Problem α) (draft : α)
    (members : List (Option String × Tree)) (closed : Bool) : Except Problem α := do
  let draft ← members.foldlM (fun draft (key, tree) => match key with
    | some key => take draft key tree
    | none => .error .malformed) draft
  requireClosed closed
  return draft

/-- Reads a whole text with a reader; nothing may follow the value. -/
def decode {α : Type} (read : Tree → Except Problem α) (text : String) : Except Problem α := do
  let (tree, finished) := readTree text
  let value ← read tree
  requireClosed finished
  return value

end PuzzleGate.Json
