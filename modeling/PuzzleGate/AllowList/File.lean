import PuzzleGate.AllowList.Basic
import PuzzleGate.Files.Tree
import PuzzleGate.Json.Decode
import PuzzleGate.Yaml.Decode

/-!
# Allow-list files

The extension of a file decides its format: JSON, YAML, or one name a line. In JSON and YAML the
list is either a sequence of strings or a mapping with such a sequence under `elements`. A list
that names no element is refused.
-/

namespace PuzzleGate

open Files Reading

/-- The formats of allow-list files. -/
inductive ListFormat where
  | json
  | yaml
  | lines
deriving DecidableEq, Repr

def ListFormat.ofPath (path : Path) : ListFormat :=
  match path.extension?.bind Text.Utf8.text? with
  | some "json" => .json
  | some "yaml" | some "yml" => .yaml
  | _ => .lines

/-- Why an allow-list could not be loaded. -/
inductive AllowListFault where
  | unreadable (path : Path) (fault : Fault)
  | badJson (path : Path) (problem : Problem)
  | badYaml (path : Path) (problem : Problem)
  | empty (path : Path)
deriving DecidableEq, Repr

def AllowListFault.message : AllowListFault → String
  | .unreadable path fault => s!"cannot read allow-list '{path.text}': {fault.message}"
  | .badJson path problem => s!"invalid allow-list '{path.text}': invalid JSON: {problem.message}"
  | .badYaml path problem => s!"invalid allow-list '{path.text}': invalid YAML: {problem.message}"
  | .empty path => s!"allow-list '{path.text}' contains no elements"

def AllowListFault.causes : AllowListFault → List String
  | .unreadable _ fault => [fault.message]
  | _ => []

namespace AllowList

def shapesName : String := "AllowListFile"

def elementsField : String := "elements"

def stringsOfItems? (items : List Json.Tree) : Option (List String) :=
  items.mapM fun item => match item with
    | .string (some s) => some s
    | _ => none

def namesOfTree? : Json.Tree → Option (List String)
  | .array items _ => stringsOfItems? items
  | .object members _ =>
    match members.filter fun member => member.1 == some elementsField with
    | [(_, .array items _)] => stringsOfItems? items
    | _ => none
  | _ => none

/-- Reads the names from JSON; the text must be a value before its shape matters. -/
def readTree (tree : Json.Tree) : Except Problem (List String) :=
  if (tree.value? Json.maxDepth).isNone then .error .malformed
  else match namesOfTree? tree with
    | some names => .ok names
    | none => .error (.noAlternative shapesName)

def stringsOfData? (items : List Yaml.Data) : Option (List String) :=
  items.mapM fun item => match item with
    | .string s => some s
    | _ => none

/-- What a key of a mapping says about its value: whether it is the field with the names. The
field's number stands for its name, and other numbers and names are passed over. -/
def isElementsKey? : Yaml.Data → Option Bool
  | .string s => some (s == elementsField)
  | .natural n => some (n == 0)
  | _ => none

def namesOfData? : Yaml.Data → Option (List String)
  | .list items => stringsOfData? items
  | .map entries =>
    match entries.mapM fun (key, value) => (isElementsKey? key).map (·, value) with
    | none => none
    | some marked => match marked.filter Prod.fst with
      | [(_, .list items)] => stringsOfData? items
      | _ => none
  | _ => none

def readData (data : Yaml.Data) : Except Problem (List String) :=
  match namesOfData? data with
  | some names => .ok names
  | none => .error (.noAlternative shapesName)

def namesOfText (path : Path) (text : String) : Except AllowListFault (List String) :=
  match ListFormat.ofPath path with
  | .json => (Json.decode readTree text).mapError (.badJson path)
  | .yaml => (Yaml.decodeData readData text).mapError (.badYaml path)
  | .lines => .ok (namesOfLines text)

def ofText (path : Path) (text : String) : Except AllowListFault AllowList := do
  let list := ofNames (← namesOfText path text)
  if list.isEmpty then .error (.empty path) else .ok list

def load (disk : Disk) (path : Path) : Except AllowListFault AllowList :=
  match disk.readText path with
  | .error fault => .error (.unreadable path fault)
  | .ok text => ofText path text

end AllowList

end PuzzleGate
