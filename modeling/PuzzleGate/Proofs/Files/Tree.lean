import PuzzleGate.Files.Tree
import PuzzleGate.Proofs.Lookup
import PuzzleGate.Proofs.Path.Basic
import PuzzleGate.Proofs.Text.Utf8

/-!
# Following paths

Following a path is following its segments one after the other, so the entry of a directory stands
where the directory stands, under its own name. A file is read as text exactly when its bytes are
the UTF-8 form of that text.
-/

namespace PuzzleGate.Files

/-- Whether a file system lets an entry of a directory have this name. -/
def isEntryName (name : FileName) : Bool :=
  name != [] && name != [Path.dot] && name != [Path.dot, Path.dot] && !name.contains Path.slash &&
    !name.contains 0 && decide (name.length ≤ maxNameSize)

mutual

/-- Whether a file system can hold the tree: the entries of a directory have different names, and
only such that it lets them have. -/
def Node.isSound : Node → Bool
  | .directory entries => decide (entries.map Prod.fst).Nodup && areSound entries
  | _ => true

def areSound : List (FileName × Node) → Bool
  | [] => true
  | (name, node) :: rest => isEntryName name && node.isSound && areSound rest

end

lemma isEntryName_iff {name : FileName} : isEntryName name = true ↔
    IsPlainName name ∧ 0 ∉ name ∧ name.length ≤ maxNameSize := by
  unfold isEntryName
  simp only [Bool.and_eq_true, bne_iff_ne, Bool.not_eq_true', List.contains_eq_mem,
    decide_eq_false_iff_not, decide_eq_true_eq]
  constructor
  · rintro ⟨⟨⟨⟨⟨hempty, hdot⟩, hdots⟩, hslash⟩, hnul⟩, hsize⟩
    exact ⟨⟨hempty, hdot, hdots, hslash⟩, hnul, hsize⟩
  · rintro ⟨⟨hempty, hdot, hdots, hslash⟩, hnul, hsize⟩
    exact ⟨⟨⟨⟨⟨hempty, hdot⟩, hdots⟩, hslash⟩, hnul⟩, hsize⟩

lemma isSound_of_mem {entries : List (FileName × Node)} (h : areSound entries = true)
    {name : FileName} {node : Node} (hmem : (name, node) ∈ entries) :
    isEntryName name = true ∧ node.isSound = true := by
  induction entries with
  | nil => cases hmem
  | cons entry entries ih =>
    obtain ⟨name', node'⟩ := entry
    rw [areSound, Bool.and_eq_true, Bool.and_eq_true] at h
    obtain ⟨⟨hname, hnode⟩, hrest⟩ := h
    rcases List.mem_cons.mp hmem with heq | hmem
    · obtain ⟨rfl, rfl⟩ := Prod.mk.inj heq
      exact ⟨hname, hnode⟩
    · exact ih hrest hmem

lemma isSound_cons {name : FileName} {node : Node} {rest : List (FileName × Node)}
    (h : (Node.directory ((name, node) :: rest)).isSound = true) :
    name ∉ rest.map Prod.fst ∧ isEntryName name = true ∧ node.isSound = true ∧
      (Node.directory rest).isSound = true := by
  rw [Node.isSound, areSound, Bool.and_eq_true, Bool.and_eq_true, Bool.and_eq_true,
    decide_eq_true_eq, List.map_cons, List.nodup_cons] at h
  obtain ⟨⟨hname, hnodup⟩, ⟨hentry, hnode⟩, hrest⟩ := h
  refine ⟨hname, hentry, hnode, ?_⟩
  rw [Node.isSound, Bool.and_eq_true, decide_eq_true_eq]
  exact ⟨hnodup, hrest⟩

lemma areSound_of_isSound {entries : List (FileName × Node)}
    (h : (Node.directory entries).isSound = true) : areSound entries = true := by
  rw [Node.isSound, Bool.and_eq_true] at h
  exact h.2

lemma nodup_of_isSound {entries : List (FileName × Node)}
    (h : (Node.directory entries).isSound = true) : (entries.map Prod.fst).Nodup := by
  rw [Node.isSound, Bool.and_eq_true, decide_eq_true_eq] at h
  exact h.1

lemma Node.isSound_at? {root node : Node} {names : List FileName} (h : root.isSound = true)
    (hnode : root.at? names = some node) : node.isSound = true := by
  induction names generalizing root with
  | nil =>
    obtain rfl := Option.some.inj hnode
    exact h
  | cons name names ih =>
    cases root with
    | directory entries =>
      obtain ⟨child, hchild, hrest⟩ := Option.bind_eq_some_iff.mp hnode
      rw [Node.isSound, Bool.and_eq_true] at h
      exact ih (isSound_of_mem h.2 (mem_of_lookup hchild)).2 hrest
    | file content => cases hnode
    | closed fault => cases hnode
    | link target => cases hnode

lemma at?_append {root node : Node} {names : List FileName} (h : root.at? names = some node)
    (rest : List FileName) : root.at? (names ++ rest) = node.at? rest := by
  induction names generalizing root with
  | nil =>
    obtain rfl := Option.some.inj h
    rfl
  | cons name names ih =>
    cases root with
    | file content => cases h
    | closed fault => cases h
    | link target => cases h
    | directory entries =>
      obtain ⟨child, hchild, hnode⟩ := Option.bind_eq_some_iff.mp h
      rw [List.cons_append, Node.at?, hchild]
      exact ih hnode

lemma at?_cons {entries : List (FileName × Node)} {name : FileName} {node : Node}
    (h : entries.lookup name = some node) (names : List FileName) :
    (Node.directory entries).at? (name :: names) = node.at? names := by
  rw [Node.at?, h, Option.bind_some]

/-- Following segments either fails whatever comes behind them, or arrives where what comes behind
them is followed. -/
def Passes (root : Node) (go : List FileName → Except Fault (List FileName)) : Prop :=
  (∃ fault, ∀ rest, go rest = .error fault) ∨
    ∃ place links, ∀ rest, go rest = follow root links place rest

lemma passes_advance {root : Node} {links : Nat}
    {jump : List FileName → List FileName → Except Fault (List FileName)}
    (hfollow : follow root links = advance root jump)
    (hjump : ∀ place segments, Passes root fun rest => jump place (segments ++ rest))
    (place : List FileName) (segments : List FileName) :
    Passes root fun rest => advance root jump place (segments ++ rest) := by
  induction segments generalizing place with
  | nil => exact .inr ⟨place, links, fun rest => by rw [hfollow]; rfl⟩
  | cons segment segments ih =>
    simp only [List.cons_append, advance]
    cases root.at? place.reverse with
    | none => exact .inl ⟨_, fun rest => rfl⟩
    | some node =>
      cases node with
      | file content => exact .inl ⟨_, fun rest => rfl⟩
      | link target => exact .inl ⟨_, fun rest => rfl⟩
      | closed fault =>
        dsimp only
        split_ifs
        · exact ih place
        · exact .inl ⟨_, fun rest => rfl⟩
      | directory entries =>
        dsimp only
        split_ifs
        · exact ih place
        · exact ih place.tail
        · exact .inl ⟨_, fun rest => rfl⟩
        · cases entries.lookup segment with
          | none => exact .inl ⟨_, fun rest => rfl⟩
          | some child =>
            cases child with
            | file content => exact ih _
            | directory inner => exact ih _
            | closed fault => exact ih _
            | link target =>
              dsimp only
              split_ifs
              · exact .inl ⟨_, fun rest => rfl⟩
              · simpa only [List.append_assoc] using hjump _ (target.segments ++ segments)
              · simpa only [List.append_assoc] using hjump _ (target.segments ++ segments)

theorem passes_follow (root : Node) (links : Nat) (place : List FileName)
    (segments : List FileName) :
    Passes root fun rest => follow root links place (segments ++ rest) := by
  induction links generalizing place segments with
  | zero =>
    have hfollow : follow root 0 = advance root fun _ _ => .error .tooManyLinks := rfl
    exact passes_advance hfollow (fun _ _ => .inl ⟨_, fun rest => rfl⟩) place segments
  | succ links ih =>
    have hfollow : follow root (links + 1) = advance root (follow root links) := rfl
    exact passes_advance hfollow ih place segments

lemma follow_nil (root : Node) (links : Nat) (place : List FileName) :
    follow root links place [] = .ok place := by
  cases links <;> rfl

lemma follow_idle {root : Node} {links : Nat} {place place' : List FileName}
    (h : follow root links place [[]] = .ok place') : place = place' := by
  have hadvance {jump : List FileName → List FileName → Except Fault (List FileName)}
      (h : advance root jump place [[]] = .ok place') : place = place' := by
    rw [advance] at h
    cases hnode : root.at? place.reverse with
    | none =>
      rw [hnode] at h
      cases h
    | some node =>
      rw [hnode] at h
      cases node with
      | directory entries => exact Except.ok.inj h
      | closed fault => exact Except.ok.inj h
      | file content => cases h
      | link target => cases h
  cases links with
  | zero => exact hadvance h
  | succ links => exact hadvance h

lemma follow_name {root node : Node} {links : Nat} {place : List FileName} {name : FileName}
    {entries : List (FileName × Node)} (hplace : root.at? place.reverse = some (.directory entries))
    (hentry : entries.lookup name = some node) (hlink : ∀ target, node ≠ .link target)
    (hname : isEntryName name = true) :
    follow root links place [name] = .ok (name :: place) := by
  obtain ⟨hplain, -, hsize⟩ := isEntryName_iff.mp hname
  have hadvance (jump : List FileName → List FileName → Except Fault (List FileName)) :
      advance root jump place [name] = .ok (name :: place) := by
    simp only [advance, hplace, hentry]
    rw [if_neg (by simp [hplain.ne_empty, hplain.ne_dot]), if_neg hplain.ne_dots,
      if_neg (Nat.not_lt.mpr hsize)]
  cases links with
  | zero => exact hadvance _
  | succ links => exact hadvance _

/-- Segments are followed from where those before them lead. -/
theorem follow_append {root : Node} {links : Nat} {place place' : List FileName}
    {segments : List FileName} (h : follow root links place segments = .ok place') :
    ∃ links', ∀ rest, follow root links place (segments ++ rest) =
      follow root links' place' rest := by
  rcases passes_follow root links place segments with ⟨fault, hfault⟩ | ⟨place'', links', hgo⟩
  · have herror : follow root links place (segments ++ []) = .error fault := hfault []
    rw [List.append_nil, h] at herror
    cases herror
  · have harrive : follow root links place (segments ++ []) = follow root links' place'' [] :=
      hgo []
    rw [List.append_nil, h, follow_nil] at harrive
    obtain rfl := Except.ok.inj harrive
    exact ⟨links', hgo⟩

lemma follow_of_idle {root : Node} {links : Nat} {place place' : List FileName}
    {segments : List FileName} (h : follow root links place (segments ++ [[]]) = .ok place') :
    follow root links place segments = .ok place' := by
  cases hfront : follow root links place segments with
  | error fault =>
    rcases passes_follow root links place segments with ⟨fault', hfault⟩ | ⟨place'', links', hgo⟩
    · have herror : follow root links place (segments ++ [[]]) = .error fault' := hfault [[]]
      rw [h] at herror
      cases herror
    · have harrive : follow root links place (segments ++ []) = follow root links' place'' [] :=
        hgo []
      rw [List.append_nil, hfront, follow_nil] at harrive
      cases harrive
  | ok arrived =>
    obtain ⟨links', hgo⟩ := follow_append hfront
    rw [hgo] at h
    rw [follow_idle h]

/-! ### The place of an entry -/

lemma Disk.place_eq_ok_iff {disk : Disk} {path : Path} {place : List FileName} :
    disk.place path = .ok place ↔ path.bytes ≠ [] ∧ 0 ∉ path.bytes ∧
      path.bytes.length ≤ maxPathSize ∧
      follow disk.root maxLinks [] (disk.directory.join path).segments = .ok place := by
  unfold Disk.place
  constructor
  · intro h
    split_ifs at h with hempty hnul hsize
    exact ⟨hempty, by simpa using hnul, Nat.not_lt.mp hsize, h⟩
  · rintro ⟨hempty, hnul, hsize, h⟩
    rw [if_neg hempty, if_neg (by simpa using hnul), if_neg (Nat.not_lt.mpr hsize)]
    exact h

lemma locate_eq_ok_iff {disk : Disk} {path : Path} {node : Node} : disk.locate path = .ok node ↔
    ∃ place, disk.place path = .ok place ∧ disk.root.at? place.reverse = some node := by
  unfold Disk.locate
  cases hplace : disk.place path with
  | error fault => simp [bind, Except.bind]
  | ok place =>
    cases hnode : disk.root.at? place.reverse with
    | none => simp [bind, Except.bind, hnode]
    | some found => simp [bind, Except.bind, hnode]

/-- An entry stands where its directory stands, under its own name. -/
theorem Disk.place_join {disk : Disk} {base : Path} {place : List FileName} {name : FileName}
    {node : Node} {entries : List (FileName × Node)} (hbase : disk.place base = .ok place)
    (hplace : disk.root.at? place.reverse = some (.directory entries))
    (hentry : entries.lookup name = some node) (hlink : ∀ target, node ≠ .link target)
    (hname : isEntryName name = true)
    (hsize : (base.join ⟨name⟩).bytes.length ≤ maxPathSize) :
    disk.place (base.join ⟨name⟩) = .ok (name :: place) := by
  obtain ⟨hempty, hnul, -, hfollow⟩ := Disk.place_eq_ok_iff.mp hbase
  obtain ⟨hplain, hnameNul, -⟩ := isEntryName_iff.mp hname
  refine Disk.place_eq_ok_iff.mpr ⟨Path.bytes_join_ne base hplain.ne_empty, ?_, hsize, ?_⟩
  · rw [Path.bytes_join base (Path.not_isAbsolute_of_plain hplain)]
    have hseparator : 0 ∉ base.separator := by
      unfold Path.separator
      split <;> simp [Path.slash]
    simp [hnul, hseparator, hnameNul]
  · rw [Path.join_join hempty hplain]
    obtain ⟨front, -, hfront, hsegments⟩ :=
      Path.segments_join (Path.bytes_join_ne disk.directory hempty)
        (Path.not_isAbsolute_of_plain hplain)
    have harrive : follow disk.root maxLinks [] front = .ok place := by
      rcases hfront with hfront | hfront
      · rw [← hfront]
        exact hfollow
      · rw [hfront] at hfollow
        exact follow_of_idle hfollow
    obtain ⟨links, hgo⟩ := follow_append harrive
    rw [hsegments, Path.segments_name hplain, hgo]
    exact follow_name hplace hentry hlink hname

theorem Disk.readText_eq_ok_iff {disk : Disk} {path : Path} {text : String} :
    disk.readText path = .ok text ↔ disk.readBytes path = .ok (Text.Utf8.encode text) := by
  unfold Disk.readText
  cases disk.readBytes path with
  | error fault => simp [bind, Except.bind]
  | ok bytes =>
    rw [Except.ok.injEq, ← Text.decode_eq_ok_iff]
    cases hdecode : Text.Utf8.decode bytes <;> simp [bind, Except.bind, hdecode]

end PuzzleGate.Files
