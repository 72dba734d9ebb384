import PuzzleGate.Proofs.Files.Tree
import PuzzleGate.Proofs.Path.Parent
import PuzzleGate.Proofs.Path.Identifier

/-!
# Absolute paths in a tree

An absolute path leads to the same node from every directory. A path that leads to a file ends with
the name of an entry: behind a file there is nothing to follow, and what leads up or nowhere ends in
a directory.
-/

namespace PuzzleGate.Files

open PuzzleGate.Path

variable {root : Node} {path : Path} {content : Except Fault ByteArray}

lemma Disk.place_of_isAbsolute {disk disk' : Disk} (hroot : disk'.root = disk.root)
    (h : path.isAbsolute = true) : disk'.place path = disk.place path := by
  unfold Disk.place
  rw [join_of_isAbsolute disk'.directory h, join_of_isAbsolute disk.directory h, hroot]

/-- It does not matter from where an absolute path is followed. -/
theorem Disk.locate_of_isAbsolute {disk disk' : Disk} (hroot : disk'.root = disk.root)
    (h : path.isAbsolute = true) : disk'.locate path = disk.locate path := by
  unfold Disk.locate
  rw [place_of_isAbsolute hroot h, hroot]

section Locate

variable {disk disk' : Disk}

lemma Disk.readBytes_congr (h : disk'.locate path = disk.locate path) :
    disk'.readBytes path = disk.readBytes path := by
  unfold Disk.readBytes
  rw [h]

lemma Disk.readText_congr (h : disk'.locate path = disk.locate path) :
    disk'.readText path = disk.readText path := by
  unfold Disk.readText
  rw [readBytes_congr h]

lemma Disk.exists_file_of_readText {text : String} (h : disk.readText path = .ok text) :
    ∃ content, disk.locate path = .ok (.file content) := by
  rw [readText_eq_ok_iff, readBytes] at h
  cases hnode : disk.locate path with
  | error fault =>
    rw [hnode] at h
    cases h
  | ok node =>
    rw [hnode] at h
    cases node with
    | file content => exact ⟨content, rfl⟩
    | directory entries => cases h
    | closed fault => cases h
    | link target => cases h

end Locate

lemma directory_of_at?_append {names : List FileName} {name : FileName} {node : Node}
    (h : root.at? (names ++ [name]) = some node) :
    ∃ entries, root.at? names = some (.directory entries) := by
  induction names generalizing root with
  | nil =>
    cases root with
    | file content => cases h
    | closed fault => cases h
    | link target => cases h
    | directory entries => exact ⟨entries, rfl⟩
  | cons first names ih =>
    cases root with
    | file content => cases h
    | closed fault => cases h
    | link target => cases h
    | directory entries =>
      obtain ⟨child, hchild, hnode⟩ := Option.bind_eq_some_iff.mp h
      obtain ⟨inner, hinner⟩ := ih hnode
      exact ⟨inner, by rw [at?_cons hchild, hinner]⟩

lemma directory_of_tail {place : List FileName} {entries : List (FileName × Node)}
    (h : root.at? place.reverse = some (.directory entries)) :
    ∃ entries', root.at? place.tail.reverse = some (.directory entries') := by
  cases place with
  | nil => exact ⟨entries, h⟩
  | cons name place =>
    rw [List.reverse_cons] at h
    exact directory_of_at?_append h

lemma exists_name_of_advance
    {jump : List FileName → List FileName → Except Fault (List FileName)}
    {place place' : List FileName} {segment : FileName}
    (h : advance root jump place [segment] = .ok place')
    (hfile : root.at? place'.reverse = some (.file content)) :
    component? segment = some (.name segment) := by
  have hno {entries : List (FileName × Node)} :
      root.at? place'.reverse ≠ some (.directory entries) := by
    rw [hfile]
    exact nofun
  rw [advance] at h
  split at h
  · rename_i entries hplace
    split_ifs at h with hidle habove
    · rw [advance, Except.ok.injEq] at h
      exact absurd hplace (h ▸ hno)
    · rw [advance, Except.ok.injEq] at h
      obtain ⟨above, hdirectory⟩ := directory_of_tail hplace
      exact absurd hdirectory (h ▸ hno)
    · rw [component?, if_neg hidle, if_neg habove]
  · rename_i fault hplace
    split_ifs at h
    rw [advance, Except.ok.injEq] at h
    rw [← h, hplace] at hfile
    cases hfile
  · cases h
  · cases h

lemma exists_name_of_follow {links : Nat} {place place' : List FileName}
    {segments : List FileName} {segment : FileName}
    (h : follow root links place (segments ++ [segment]) = .ok place')
    (hfile : root.at? place'.reverse = some (.file content)) :
    component? segment = some (.name segment) := by
  rcases passes_follow root links place segments with ⟨fault, hfault⟩ | ⟨place'', links', hgo⟩
  · have herror : follow root links place (segments ++ [segment]) = .error fault := hfault _
    rw [h] at herror
    cases herror
  · have harrive : follow root links' place'' [segment] = .ok place' := (hgo _).symm.trans h
    cases links' with
    | zero => exact exists_name_of_advance harrive hfile
    | succ links' => exact exists_name_of_advance harrive hfile

theorem Disk.exists_name_of_file {disk : Disk} (habsolute : path.isAbsolute = true)
    (h : disk.locate path = .ok (.file content)) :
    ∃ front name, path.components = front ++ [.name name] := by
  obtain ⟨place, hplace, hfile⟩ := locate_eq_ok_iff.mp h
  have hfollow := (place_eq_ok_iff.mp hplace).2.2.2
  have hsplit := List.dropLast_append_getLast (segments_ne_nil path)
  rw [join_of_isAbsolute _ habsolute, ← hsplit] at hfollow
  have hname := exists_name_of_follow hfollow hfile
  refine ⟨.root :: path.segments.dropLast.filterMap component?,
    path.segments.getLast (segments_ne_nil path), ?_⟩
  rw [components_eq_append, if_pos habsolute]
  conv_lhs => rw [← hsplit]
  rw [List.filterMap_append, List.filterMap_cons_some hname]
  rfl

end PuzzleGate.Files
