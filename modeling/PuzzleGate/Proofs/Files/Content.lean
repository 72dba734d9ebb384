import PuzzleGate.Files.Archive
import PuzzleGate.Proofs.Files.Shape

/-!
# Other content in a file

Where a path leads depends on the names and the links in a tree and not on the contents of its
files. Two trees that are the same without the contents send every path to the same place, and
when one file is given another content, all others read as before.
-/

namespace PuzzleGate.Files

mutual

/-- The tree with nothing in its files. -/
def Node.blank : Node → Node
  | .file _ => .file (.ok .empty)
  | .directory entries => .directory (blankEntries entries)
  | .closed fault => .closed fault
  | .link target => .link target

def blankEntries : List (FileName × Node) → List (FileName × Node)
  | [] => []
  | (name, node) :: rest => (name, node.blank) :: blankEntries rest

end

lemma lookup_blankEntries (entries : List (FileName × Node)) (name : FileName) :
    (blankEntries entries).lookup name = (entries.lookup name).map Node.blank := by
  induction entries with
  | nil => rfl
  | cons entry entries ih =>
    obtain ⟨name', node⟩ := entry
    rw [blankEntries, List.lookup_cons, List.lookup_cons]
    cases name == name' with
    | true => rfl
    | false => exact ih

lemma at?_blank (root : Node) (names : List FileName) :
    root.blank.at? names = (root.at? names).map Node.blank := by
  induction names generalizing root with
  | nil => rfl
  | cons name names ih =>
    cases root with
    | file content => rfl
    | closed fault => rfl
    | link target => rfl
    | directory entries =>
      rw [Node.blank, Node.at?, Node.at?, lookup_blankEntries]
      cases entries.lookup name with
      | none => rfl
      | some node => exact ih node

lemma kind_blank (node : Node) : node.blank.kind = node.kind := by
  cases node <;> rfl

lemma sameShape_blank (root : Node) : SameShape root.blank root := by
  intro names
  rw [at?_blank, Option.map_map]
  exact congrArg (fun kind => (root.at? names).map kind) (funext kind_blank)

/-- Trees that are the same without their contents send a path to the same place. -/
theorem Disk.place_of_blank (disk disk' : Disk) (hdirectory : disk'.directory = disk.directory)
    (hroot : disk'.root.blank = disk.root.blank) (path : Path) :
    disk'.place path = disk.place path := by
  apply Disk.place_congr hdirectory
  intro names
  rw [← sameShape_blank disk'.root names, hroot, sameShape_blank]

lemma lookup_setEntry (name other : FileName) (node : Node) (entries : List (FileName × Node)) :
    (setEntry name node entries).lookup other =
      if other = name then some node else entries.lookup other := by
  induction entries with
  | nil => exact lookup_cons_eq_if name other node []
  | cons entry entries ih =>
    obtain ⟨name', old⟩ := entry
    rw [setEntry, lookup_cons_eq_if]
    by_cases hname : name' = name
    · subst hname
      rw [if_pos rfl, lookup_cons_eq_if]
      by_cases hother : other = name' <;> simp [hother]
    · rw [if_neg hname, lookup_cons_eq_if, ih]
      by_cases hother : other = name'
      · subst hother
        rw [if_pos rfl, if_neg hname, if_pos rfl]
      · rw [if_neg hother, if_neg hother]

lemma blankEntries_setEntry {name : FileName} {node old : Node} {entries : List (FileName × Node)}
    (hold : entries.lookup name = some old) (hblank : node.blank = old.blank) :
    blankEntries (setEntry name node entries) = blankEntries entries := by
  induction entries with
  | nil => cases hold
  | cons entry entries ih =>
    obtain ⟨name', child⟩ := entry
    rw [setEntry]
    by_cases hname : name' = name
    · subst hname
      rw [List.lookup_cons_self] at hold
      obtain rfl := Option.some.inj hold
      rw [if_pos rfl, blankEntries, blankEntries, hblank]
    · have hne : (name == name') = false := beq_eq_false_iff_ne.mpr (Ne.symm hname)
      rw [List.lookup_cons, hne] at hold
      rw [if_neg hname, blankEntries, blankEntries, ih hold]

/-- The content of a file. -/
def contentOf? : Option Node → Option (Except Fault ByteArray)
  | some (.file content) => some content
  | _ => none

/-- What reading gives where the path leads to this node. -/
def readNode : Option Node → Except Fault ByteArray
  | some (.file content) => content
  | some (.closed fault) => .error fault
  | some _ => .error .isDirectory
  | none => .error .notFound

lemma put_blank {root : Node} {names : List FileName} {old content : Except Fault ByteArray}
    (h : root.at? names = some (.file old)) :
    ((Node.file content).put names root).blank = root.blank := by
  induction names generalizing root with
  | nil =>
    obtain rfl := Option.some.inj h
    rfl
  | cons name names ih =>
    cases root with
    | file content => cases h
    | closed fault => cases h
    | link target => cases h
    | directory entries =>
      obtain ⟨child, hchild, hrest⟩ := Option.bind_eq_some_iff.mp h
      rw [Node.put, hchild, Option.getD_some, Node.blank, Node.blank,
        blankEntries_setEntry hchild (ih hrest)]

/-- A file that is put in the place of another changes the content in no other place. -/
theorem contentOf?_at?_put {root : Node} {names names' : List FileName}
    {old content : Except Fault ByteArray} (h : root.at? names = some (.file old))
    (hne : names' ≠ names) :
    contentOf? (((Node.file content).put names root).at? names') =
      contentOf? (root.at? names') := by
  induction names generalizing root names' with
  | nil =>
    obtain rfl := Option.some.inj h
    obtain ⟨name, rest, rfl⟩ := List.exists_cons_of_ne_nil hne
    rfl
  | cons name names ih =>
    cases root with
    | file content => cases h
    | closed fault => cases h
    | link target => cases h
    | directory entries =>
      obtain ⟨child, hchild, hrest⟩ := Option.bind_eq_some_iff.mp h
      rw [Node.put, hchild, Option.getD_some]
      cases names' with
      | nil => rfl
      | cons name' names' =>
        rw [Node.at?, Node.at?, lookup_setEntry]
        by_cases hname : name' = name
        · subst hname
          have hrestne : names' ≠ names := by
            rintro rfl
            exact hne rfl
          rw [if_pos rfl, hchild]
          exact ih hrest hrestne
        · rw [if_neg hname]

/-- The tree with another content in the file that stands in this place. -/
def Disk.withContent (disk : Disk) (place : List FileName) (content : Except Fault ByteArray) :
    Disk :=
  { disk with root := (Node.file content).put place.reverse disk.root }

lemma readBytes_of_place {disk : Disk} {path : Path} {place : List FileName}
    (h : disk.place path = .ok place) :
    disk.readBytes path = readNode (disk.root.at? place.reverse) := by
  unfold Disk.readBytes Disk.locate
  rw [h]
  cases hnode : disk.root.at? place.reverse with
  | none => simp [bind, Except.bind, hnode, readNode]
  | some node => cases node <;> simp [bind, Except.bind, hnode, readNode]

lemma readNode_eq {node node' : Option Node} (hblank : node.map Node.blank = node'.map Node.blank)
    (hcontent : contentOf? node = contentOf? node') : readNode node = readNode node' := by
  cases node with
  | none =>
    cases node' with
    | none => rfl
    | some node' => cases hblank
  | some node =>
    cases node' with
    | none => cases hblank
    | some node' =>
      have hsame := Option.some.inj hblank
      cases node <;> cases node' <;> simp_all [Node.blank, readNode, contentOf?]

/-- Other content in one file changes nothing about what is read elsewhere. -/
theorem readBytes_withContent {disk : Disk} {place : List FileName} {old : Except Fault ByteArray}
    (h : disk.root.at? place.reverse = some (.file old)) (content : Except Fault ByteArray)
    {path : Path} (hpath : disk.place path ≠ .ok place) :
    (disk.withContent place content).readBytes path = disk.readBytes path := by
  have hblank : (disk.withContent place content).root.blank = disk.root.blank := put_blank h
  have hplace := disk.place_of_blank (disk.withContent place content) rfl hblank path
  cases hfound : disk.place path with
  | error fault =>
    rw [hfound] at hplace
    unfold Disk.readBytes Disk.locate
    rw [hplace, hfound]
    rfl
  | ok other =>
    have hne : other.reverse ≠ place.reverse := by
      intro heq
      rw [List.reverse_inj.mp heq] at hfound
      exact hpath hfound
    have hcontent : contentOf? ((disk.withContent place content).root.at? other.reverse) =
        contentOf? (disk.root.at? other.reverse) := contentOf?_at?_put h hne
    have hnode := congrArg (fun root => root.at? other.reverse) hblank
    simp only [at?_blank] at hnode
    rw [hfound] at hplace
    rw [readBytes_of_place hplace, readBytes_of_place hfound]
    exact readNode_eq hnode hcontent

end PuzzleGate.Files
