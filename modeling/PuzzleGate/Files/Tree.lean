import PuzzleGate.Files.Fault
import PuzzleGate.Path.Basic
import PuzzleGate.Text.Utf8

/-!
# File trees

A file tree holds regular files, directories and symbolic links. The system may refuse to read a
file or to open a directory. `locate` follows a path from the root: links are followed wherever they
stand, and at most `maxLinks` of them, so that trees whose links form cycles are walked in finitely
many steps.
-/

namespace PuzzleGate.Files

inductive Node where
  /-- A file with its content, or with the reason why it is not read. -/
  | file (content : Except Fault ByteArray)
  | directory (entries : List (FileName × Node))
  /-- A directory that is neither listed nor entered. -/
  | closed (fault : Fault)
  | link (target : Path)

instance : Inhabited Node := ⟨.directory []⟩

/-- A file with this text. -/
def Node.ofText (text : String) : Node := .file (.ok (Text.Utf8.encode text))

def Node.isDirectory : Node → Bool
  | .directory _ | .closed _ => true
  | _ => false

/-- The node reached by entering these names one after the other, without following links. -/
def Node.at? : Node → List FileName → Option Node
  | node, [] => some node
  | .directory entries, name :: names => (entries.lookup name).bind fun node => node.at? names
  | _, _ :: _ => none
termination_by structural _ names => names

def maxLinks : Nat := 40

/-- The longest name of a file, in bytes. -/
def maxNameSize : Nat := 255

/-- The longest path, in bytes. -/
def maxPathSize : Nat := 4095

/-- Follows segments from a directory, given by the names that lead to it, innermost first. The
argument `jump` goes on behind a link. -/
def advance (root : Node) (jump : List FileName → List FileName → Except Fault (List FileName))
    (place : List FileName) : List FileName → Except Fault (List FileName)
  | [] => .ok place
  | segment :: pending =>
    match root.at? place.reverse with
    | some (.directory entries) =>
      if segment = [] || segment = [Path.dot] then advance root jump place pending
      else if segment = [Path.dot, Path.dot] then advance root jump place.tail pending
      else if maxNameSize < segment.length then .error .nameTooLong
      else match entries.lookup segment with
        | none => .error .notFound
        | some (.link target) =>
          if target.bytes = [] then .error .notFound
          else jump (if target.isAbsolute then [] else place) (target.segments ++ pending)
        | some _ => advance root jump (segment :: place) pending
    | some (.closed fault) =>
      if segment = [] then advance root jump place pending else .error fault
    | some _ => .error .notDirectory
    | none => .error .notFound

/-- Follows segments through at most `links` links. -/
def follow (root : Node) : (links : Nat) → List FileName → List FileName →
    Except Fault (List FileName)
  | 0 => advance root fun _ _ => .error .tooManyLinks
  | links + 1 => advance root (follow root links)

/-- A tree and the directory against which relative paths are taken. -/
structure Disk where
  root : Node
  directory : Path

namespace Disk

/-- The names that lead to what the path stands for, innermost first. -/
def place (disk : Disk) (path : Path) : Except Fault (List FileName) :=
  if path.bytes = [] then .error .notFound
  else if path.bytes.contains 0 then .error .nulInPath
  else if maxPathSize < path.bytes.length then .error .nameTooLong
  else follow disk.root maxLinks [] (disk.directory.join path).segments

def locate (disk : Disk) (path : Path) : Except Fault Node := do
  match disk.root.at? (← disk.place path).reverse with
  | some node => .ok node
  | none => .error .notFound

def isDirectory (disk : Disk) (path : Path) : Bool :=
  (disk.locate path).toOption.any Node.isDirectory

def isFile (disk : Disk) (path : Path) : Bool :=
  match disk.locate path with
  | .ok (.file _) => true
  | _ => false

def readBytes (disk : Disk) (path : Path) : Except Fault ByteArray := do
  match ← disk.locate path with
  | .file content => content
  | .closed fault => .error fault
  | _ => .error .isDirectory

def readText (disk : Disk) (path : Path) : Except Fault String := do
  match Text.Utf8.decode (← disk.readBytes path) with
  | .ok text => .ok text
  | .error _ => .error .notText

def inside (disk : Disk) (path : Path) : Disk := { disk with directory := disk.directory.join path }

/-- The path of the directory with no link on the way. -/
def realDirectory (disk : Disk) : Path :=
  match disk.place (.ofText ".") with
  | .ok place => ⟨Path.slash :: Path.joinSegments place.reverse⟩
  | .error _ => disk.directory

/-- The same tree seen by a program that is started in another directory. -/
def enter (disk : Disk) (path : Path) : Disk :=
  { disk with directory := (disk.inside path).realDirectory }

end Disk

end PuzzleGate.Files
