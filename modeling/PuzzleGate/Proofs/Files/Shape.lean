import PuzzleGate.Proofs.Files.Tree

/-!
# Trees of one shape

Where a path leads depends on what kind of node stands at each place of a tree, and on nothing else:
neither on what is in the files nor on the order in which the entries of a directory are listed.
-/

namespace PuzzleGate.Files

/-- What following a path takes notice of in a node. -/
inductive Kind where
  | file
  | directory
  | closed (fault : Fault)
  | link (target : Path)
deriving DecidableEq

def Node.kind : Node → Kind
  | .file _ => .file
  | .directory _ => .directory
  | .closed fault => .closed fault
  | .link target => .link target

/-- At every place of the trees stand nodes of one kind. -/
def SameShape (root root' : Node) : Prop :=
  ∀ names, (root.at? names).map Node.kind = (root'.at? names).map Node.kind

lemma lookup_eq_at? {root : Node} {place : List FileName} {entries : List (FileName × Node)}
    (h : root.at? place = some (.directory entries)) (name : FileName) :
    entries.lookup name = root.at? (place ++ [name]) := by
  rw [at?_append h, Node.at?]
  cases entries.lookup name <;> rfl

lemma kind_cases {found found' : Option Node} (h : found.map Node.kind = found'.map Node.kind) :
    (found = none ∧ found' = none) ∨
    (∃ content content', found = some (.file content) ∧ found' = some (.file content')) ∨
    (∃ target, found = some (.link target) ∧ found' = some (.link target)) ∨
    (∃ fault, found = some (.closed fault) ∧ found' = some (.closed fault)) ∨
    ∃ entries entries', found = some (.directory entries) ∧
      found' = some (.directory entries') := by
  cases found with
  | none => exact .inl ⟨rfl, Option.map_eq_none_iff.mp h.symm⟩
  | some node =>
    obtain ⟨node', rfl, hkind⟩ := Option.map_eq_some_iff.mp h.symm
    cases node <;> cases node' <;> cases hkind
    · exact .inr (.inl ⟨_, _, rfl, rfl⟩)
    · exact .inr (.inr (.inr (.inr ⟨_, _, rfl, rfl⟩)))
    · exact .inr (.inr (.inr (.inl ⟨_, rfl, rfl⟩)))
    · exact .inr (.inr (.inl ⟨_, rfl, rfl⟩))

lemma advance_congr {root root' : Node} (h : SameShape root root')
    (jump : List FileName → List FileName → Except Fault (List FileName)) (place : List FileName)
    (segments : List FileName) :
    advance root jump place segments = advance root' jump place segments := by
  induction segments generalizing place with
  | nil => rfl
  | cons segment segments ih =>
    rw [advance, advance]
    rcases kind_cases (h place.reverse) with ⟨hnode, hnode'⟩ | ⟨_, _, hnode, hnode'⟩ |
      ⟨_, hnode, hnode'⟩ | ⟨_, hnode, hnode'⟩ | ⟨entries, entries', hnode, hnode'⟩
    · rw [hnode, hnode']
    · rw [hnode, hnode']
    · rw [hnode, hnode']
    · simp only [hnode, hnode', ih]
    · have hentry := h (place.reverse ++ [segment])
      rw [← lookup_eq_at? hnode, ← lookup_eq_at? hnode'] at hentry
      rw [hnode, hnode']
      rcases kind_cases hentry with ⟨hchild, hchild'⟩ | ⟨_, _, hchild, hchild'⟩ |
        ⟨_, hchild, hchild'⟩ | ⟨_, hchild, hchild'⟩ | ⟨_, _, hchild, hchild'⟩
      all_goals simp only [hchild, hchild', ih]

theorem follow_congr {root root' : Node} (h : SameShape root root') (links : Nat) :
    follow root links = follow root' links := by
  induction links with
  | zero =>
    funext place segments
    exact advance_congr h _ place segments
  | succ links ih =>
    funext place segments
    rw [follow, follow, ih]
    exact advance_congr h _ place segments

theorem Disk.place_congr {disk disk' : Disk} (hdirectory : disk'.directory = disk.directory)
    (h : SameShape disk'.root disk.root) (path : Path) : disk'.place path = disk.place path := by
  unfold Disk.place
  rw [hdirectory, follow_congr h]

end PuzzleGate.Files
