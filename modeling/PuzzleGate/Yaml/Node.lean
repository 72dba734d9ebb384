import PuzzleGate.Yaml.Event

/-!
# YAML documents as far as they can be read

The first document of a text as a tree of nodes. As in a text that breaks off, a collection may be
unfinished and a node `broken`. Aliases stay in the tree; `Document.resolve` finds what they stand
for, which may lie around them or be unfinished.
-/

namespace PuzzleGate.Yaml

structure Scalar where
  text : String
  style : Style
  tag : Option String
deriving DecidableEq, Repr

inductive Node where
  | scalar (scalar : Scalar)
  | sequence (tag : Option String) (items : List Node) (closed : Bool)
  | mapping (tag : Option String) (entries : List (Node × Node)) (closed : Bool)
  | alias (id : Nat)
  /-- The document has no node at all. -/
  | absent
  /-- The text cannot be read from here on. -/
  | broken

instance : Inhabited Node := ⟨.broken⟩

structure Document where
  root : Node
  /-- The place of the node that an anchor's number stands for. -/
  anchors : List (Nat × Nat)
  /-- The nodes that have an anchor, by their place. -/
  anchored : List (Nat × Node)
  /-- The number of events that were read. -/
  size : Nat
  /-- Whether the text ends behind the document. -/
  finished : Bool

def Document.resolve (document : Document) : Node → Node
  | .alias id =>
    ((document.anchors.lookup id).bind fun place => document.anchored.lookup place).getD .broken
  | node => node

/-- An open collection: its place when it has an anchor, its tag, and what it holds so far. -/
inductive Frame where
  | items (place : Option Nat) (tag : Option String) (before : List Node)
  | entries (place : Option Nat) (tag : Option String) (before : List (Node × Node))
  /-- A mapping in which a key was read and its value is due. -/
  | value (place : Option Nat) (tag : Option String) (before : List (Node × Node)) (key : Node)

/-- A document under construction. -/
structure Composer where
  stack : List Frame
  root : Node
  /-- The anchors by name. An anchor's number is the count of different names before it. -/
  names : List (List Char × Nat)
  anchors : List (Nat × Nat)
  anchored : List (Nat × Node)
  size : Nat

namespace Composer

def empty : Composer := ⟨[], .absent, [], [], [], 0⟩

/-- Gives the current place a name; of places with one number the latest counts. -/
def anchor (c : Composer) : Option (List Char) → Composer × Option Nat
  | none => (c, none)
  | some name =>
    let id := c.names.length
    let names := (name, id) :: c.names.filter fun n => n.1 ≠ name
    ({ c with names, anchors := (id, c.size) :: c.anchors }, some c.size)

def record (c : Composer) (place : Option Nat) (node : Node) : Composer :=
  match place with
  | some place => { c with anchored := (place, node) :: c.anchored }
  | none => c

def put (c : Composer) (node : Node) : Composer :=
  match c.stack with
  | [] => { c with root := node }
  | .items place tag before :: stack =>
    { c with stack := .items place tag (node :: before) :: stack }
  | .entries place tag before :: stack =>
    { c with stack := .value place tag before node :: stack }
  | .value place tag before key :: stack =>
    { c with stack := .entries place tag ((key, node) :: before) :: stack }

def close (c : Composer) (closed : Bool) : Composer :=
  match c.stack with
  | [] => c
  | frame :: stack =>
    let (place, node) := match frame with
      | .items place tag before => (place, .sequence tag before.reverse closed)
      | .entries place tag before => (place, .mapping tag before.reverse closed)
      | .value place tag before key =>
        (place, .mapping tag ((key, .broken) :: before).reverse closed)
    ({ c with stack }.record place node).put node

def closeAll : (fuel : Nat) → Composer → Composer
  | 0, c => c
  | fuel + 1, c => closeAll fuel (c.close false)

def stop (c : Composer) : Document :=
  let c := closeAll c.stack.length c
  let root := match c.root with
    | .absent => .broken
    | root => root
  ⟨root, c.anchors, c.anchored, c.size, false⟩

def run (c : Composer) : List Event → Document
  | [] | .fault :: _ => c.stop
  | .streamEnd :: _ => ⟨c.root, c.anchors, c.anchored, c.size + 1, true⟩
  | .documentStart :: rest => run c rest
  | .documentEnd :: rest =>
    ⟨c.root, c.anchors, c.anchored, c.size, rest.head? == some .streamEnd⟩
  | .alias name :: rest =>
    match c.names.lookup name with
    | some id => run { c.put (.alias id) with size := c.size + 1 } rest
    | none => c.stop
  | .scalar anchor tag text style :: rest =>
    let (c, place) := c.anchor anchor
    let node := .scalar ⟨text, style, tag⟩
    run { (c.record place node).put node with size := c.size + 1 } rest
  | .sequenceStart anchor tag :: rest =>
    let (c, place) := c.anchor anchor
    run { c with stack := .items place tag [] :: c.stack, size := c.size + 1 } rest
  | .mappingStart anchor tag :: rest =>
    let (c, place) := c.anchor anchor
    run { c with stack := .entries place tag [] :: c.stack, size := c.size + 1 } rest
  | .sequenceEnd :: rest | .mappingEnd :: rest =>
    run { c.close true with size := c.size + 1 } rest

end Composer

def readDocument (text : String) : Document := Composer.empty.run (events text)

end PuzzleGate.Yaml
