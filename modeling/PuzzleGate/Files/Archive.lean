import PuzzleGate.Files.Tree

/-!
# Building a file tree from a list

An archive lists files, directories and links by path. They are put into the tree one after the
other; missing directories on the way are made, links on the way are followed, and a file that is
already there is replaced.
-/

namespace PuzzleGate.Files

/-- Sets an entry of a directory, in the place of an earlier one of that name. -/
def setEntry (name : FileName) (node : Node) : List (FileName × Node) → List (FileName × Node)
  | [] => [(name, node)]
  | (n, old) :: entries =>
    if n = name then (name, node) :: entries else (n, old) :: setEntry name node entries

/-- Puts a node where these names lead, making directories on the way. -/
def Node.put (node : Node) : List FileName → Node → Node
  | [], _ => node
  | name :: names, .directory entries =>
    .directory (setEntry name (node.put names ((entries.lookup name).getD (.directory []))) entries)
  | name :: names, _ => .directory [(name, node.put names (.directory []))]

/-- The directory that a list of segments leads to, made where it is missing. -/
def makeDirectories (root : Node) (place : List FileName) : List FileName → Node × List FileName
  | [] => (root, place)
  | segment :: segments =>
    match follow root maxLinks place [segment] with
    | .ok inner => makeDirectories root inner segments
    | .error _ =>
      let inner := segment :: place
      makeDirectories ((Node.directory []).put inner.reverse root) inner segments

/-- An item of an archive. -/
structure ArchiveItem where
  path : Path
  node : Node

def ArchiveItem.addTo (root : Node) (item : ArchiveItem) : Node :=
  let segments := item.path.segments.filter fun segment => !Path.isIdle segment
  match segments.getLast? with
  | none => root
  | some last =>
    let (root, place) := makeDirectories root [] segments.dropLast
    match follow root maxLinks place [last], item.node with
    | .ok _, .directory _ => root
    | .ok target, .file content => (Node.file content).put target.reverse root
    | _, node => node.put (last :: place).reverse root

def ofArchive (items : List ArchiveItem) : Node :=
  items.foldl ArchiveItem.addTo (.directory [])

/-- Writes a file, which may be new, into a directory that is there. -/
def Disk.write (disk : Disk) (path : Path) (content : ByteArray) : Except Fault Disk :=
  let place := disk.directory.join path
  let root := ArchiveItem.addTo disk.root ⟨place, .file (.ok content)⟩
  let written : Disk := { disk with root }
  match disk.locate path with
  | .ok (.directory _) | .ok (.closed _) => .error .isDirectory
  | .ok (.file (.error fault)) => .error fault
  | .ok _ => .ok written
  | .error .notFound =>
    if path.bytes ≠ [] && (place.parent?.map disk.isDirectory).getD false then .ok written
    else .error .notFound
  | .error fault => .error fault

end PuzzleGate.Files
