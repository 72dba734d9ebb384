import PuzzleGate.Text.Lines
import PuzzleGate.Text.Utf8

/-!
# Paths

A path is a sequence of bytes whose segments are separated by slashes. Most often it is the UTF-8
form of a text, but the system does not ask for that, and neither do the names of files. The
components of a path are what its segments mean: empty segments mean nothing, and neither does a
dot unless the path begins with it. Paths are joined as they are written, but compared and measured
against each other by components.
-/

namespace PuzzleGate

/-- The name of a file, as the system keeps it. -/
abbrev FileName := List UInt8

def FileName.ofText (text : String) : FileName := Text.Utf8.bytes text

/-- A path, as it is written. -/
structure Path where
  bytes : List UInt8
deriving DecidableEq, Repr

instance : Inhabited Path := ⟨⟨[]⟩⟩

namespace Path

def ofText (text : String) : Path := ⟨Text.Utf8.bytes text⟩

/-- The path as it is shown in messages. -/
def text (path : Path) : String := Text.Utf8.lossy path.bytes

abbrev slash : UInt8 := 0x2f

abbrev dot : UInt8 := 0x2e

/-- A component of a path. The order of the constructors is the order of the components. -/
inductive Component where
  /-- The root directory. -/
  | root
  /-- The directory itself; only ever the first component. -/
  | here
  /-- The directory above. -/
  | above
  | name (name : FileName)
deriving DecidableEq, Repr, Ord

def Component.bytes : Component → List UInt8
  | .root => [slash]
  | .here => [dot]
  | .above => [dot, dot]
  | .name bytes => bytes

/-- The component as it is shown in messages. -/
def Component.text (component : Component) : String := Text.Utf8.lossy component.bytes

def segments (path : Path) : List FileName := Text.splitOn slash path.bytes

def isAbsolute (path : Path) : Bool := path.bytes.head? == some slash

def component? (segment : FileName) : Option Component :=
  if segment = [] || segment = [dot] then none
  else if segment = [dot, dot] then some .above
  else some (.name segment)

def components (path : Path) : List Component :=
  if path.isAbsolute then .root :: path.segments.filterMap component?
  else match path.segments with
    | [0x2e] :: rest => .here :: rest.filterMap component?
    | segments => segments.filterMap component?

/-- The order of paths: component by component. -/
def compare (a b : Path) : Ordering := Ord.compare a.components b.components

def join (base path : Path) : Path :=
  if path.isAbsolute then path
  else if base.bytes = [] || base.bytes.getLast? = some slash then ⟨base.bytes ++ path.bytes⟩
  else ⟨base.bytes ++ [slash] ++ path.bytes⟩

/-- The components of a path behind those of another, if it starts with them. -/
def stripComponents? : List Component → List Component → Option (List Component)
  | [], path => some path
  | _ :: _, [] => none
  | c :: root, d :: path => if c = d then stripComponents? root path else none

def fileName? (path : Path) : Option FileName :=
  match path.components.getLast? with
  | some (.name name) => some name
  | _ => none

/-- The part of a file name behind its last dot; a dot at the very start does not count. -/
def extensionOf? (name : FileName) : Option FileName :=
  let behind := (name.reverse.takeWhile (· ≠ dot)).reverse
  let before := name.length - behind.length
  if before ≤ 1 then none else some behind

def extension? (path : Path) : Option FileName := path.fileName?.bind extensionOf?

def isIdle (segment : FileName) : Bool := segment = [] || segment = [dot]

def trimSegments (segments : List FileName) : List FileName :=
  (segments.reverse.dropWhile isIdle).reverse

def joinSegments (segments : List FileName) : List UInt8 := [slash].intercalate segments

/-- The path without its last component, as far as it is written; the root and the empty path have
no parent. -/
def parent? (path : Path) : Option Path :=
  if path.isAbsolute then
    match trimSegments path.segments.tail with
    | [] => none
    | body => some ⟨slash :: joinSegments (trimSegments body.dropLast)⟩
  else match path.segments with
    | [0x2e] :: rest => match trimSegments rest with
      | [] => some ⟨[]⟩
      | body => some ⟨joinSegments ([dot] :: trimSegments body.dropLast)⟩
    | segments => match trimSegments segments with
      | [] => none
      | body => some ⟨joinSegments (trimSegments body.dropLast)⟩

end Path

/-- The identifier of a document in reports: its components below the root, or all of them when it
is not below the root, as they are shown and separated by slashes. -/
def documentId (root path : Path) : String :=
  let components := (Path.stripComponents? root.components path.components).getD path.components
  "/".intercalate (components.map Path.Component.text)

end PuzzleGate
