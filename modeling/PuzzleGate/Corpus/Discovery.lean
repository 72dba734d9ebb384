import PuzzleGate.Files.Tree

/-!
# Finding the documents of a corpus

The documents below a content root are the regular files with one of the given extensions, in all
directories but hidden ones and those of installed packages. A directory whose name is not UTF-8 is
taken for neither. Links are not followed. The root itself may be a link and may have any name. The
result is in the order of paths. One directory on the way that the system does not list stops the
search.
-/

namespace PuzzleGate.Corpus

open Files

def packagesDirectory : String := "node_modules"

/-- Whether a directory of this name is passed over. A name that is not UTF-8 is read as empty. -/
def isSkipped (name : FileName) : Bool :=
  let text := (Text.Utf8.text? name).getD ""
  text.toList.head? == some '.' || text == packagesDirectory

def hasExtension (extensions : List String) (path : Path) : Bool :=
  match path.extension?.bind Text.Utf8.text? with
  | some extension => extensions.contains extension
  | none => false

mutual

/-- The documents in a directory whose own path is `path`, in the order of its entries. -/
def documentsIn (extensions : List String) (path : Path) : Node → List Path
  | .directory entries => documentsOf extensions path entries
  | .file _ | .closed _ | .link _ => []

def documentsOf (extensions : List String) (path : Path) : List (FileName × Node) → List Path
  | [] => []
  | (name, .directory entries) :: rest =>
    (if isSkipped name then []
      else documentsIn extensions (path.join ⟨name⟩) (.directory entries)) ++
      documentsOf extensions path rest
  | (name, .file _) :: rest =>
    (if hasExtension extensions (path.join ⟨name⟩) then [path.join ⟨name⟩] else []) ++
      documentsOf extensions path rest
  | (_, .link _) :: rest => documentsOf extensions path rest
  | (_, .closed _) :: rest => documentsOf extensions path rest

end

mutual

/-- The first directory on the way through a directory that the system does not list, and the reason
for that. -/
def unlistedIn (path : Path) : Node → Option (Path × Fault)
  | .directory entries =>
    if maxPathSize < path.bytes.length then some (path, .nameTooLong) else unlistedOf path entries
  | .closed fault => some (path, if maxPathSize < path.bytes.length then .nameTooLong else fault)
  | .file _ | .link _ => none

def unlistedOf (path : Path) : List (FileName × Node) → Option (Path × Fault)
  | [] => none
  | (name, node) :: rest =>
    (if isSkipped name then none else unlistedIn (path.join ⟨name⟩) node).or (unlistedOf path rest)

end

/-- Why the documents of a corpus could not be found. -/
inductive DiscoveryFault where
  /-- The content root is no directory. -/
  | missingRoot (root : Path)
  /-- A directory could not be listed. -/
  | unlisted (path : Path) (fault : Fault)
deriving DecidableEq, Repr

def DiscoveryFault.message : DiscoveryFault → String
  | .missingRoot root => s!"content root '{root.text}' does not exist or is not a directory"
  | .unlisted path fault => s!"cannot list '{path.text}': {fault.message}"

def DiscoveryFault.causes : DiscoveryFault → List String
  | .missingRoot _ => []
  | .unlisted _ fault => [fault.message]

def discover (disk : Disk) (root : Path) (extensions : List String) :
    Except DiscoveryFault (List Path) :=
  match disk.locate root with
  | .error _ => .error (.missingRoot root)
  | .ok node =>
    if !node.isDirectory then .error (.missingRoot root)
    else match unlistedIn root node with
      | some (path, fault) => .error (.unlisted path fault)
      | none => .ok ((documentsIn extensions root node).mergeSort fun a b => (a.compare b).isLE)

end PuzzleGate.Corpus
