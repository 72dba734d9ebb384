import PuzzleGate.Proofs.Corpus.Discovery
import PuzzleGate.Proofs.Files.Listing
import PuzzleGate.Proofs.Path.Extension
import PuzzleGate.Proofs.Path.Order

/-!
# Which documents are found

A file below the root is a document if it has one of the extensions and no directory on the way to
it is skipped. A search finds all of these and nothing else, and it puts them in the order of their
paths, so in whichever order directories list their entries, the result is the same.
-/

namespace PuzzleGate.Corpus

open Files

/-- The name is that of a hidden directory or of the one with the installed packages. -/
def IsPassedOver (name : FileName) : Prop :=
  name.head? = some Path.dot ∨ name = .ofText "node_modules"

instance (name : FileName) : Decidable (IsPassedOver name) :=
  inferInstanceAs (Decidable (_ ∨ _))

/-- The names lead, from a directory with these entries, to a file that is a document. They lead
through directories only, since a link has no entries, and through none that is passed over, unless
its name is not UTF-8. What the file itself is called does not matter but for the extension. -/
structure IsDocument (extensions : List String) (entries : List (FileName × Node))
    (names : List FileName) : Prop where
  file : ∃ content, (Node.directory entries).at? names = some (.file content)
  listed : ∀ name ∈ names.dropLast, IsTextName name → ¬ IsPassedOver name
  extension : ∃ name extension, names.getLast? = some name ∧
    Path.HasExtension name (.ofText extension) ∧ extension ∈ extensions

lemma head?_bytes_eq_dot_iff {text : String} :
    (Text.Utf8.bytes text).head? = some Path.dot ↔ text.toList.head? = some '.' := by
  constructor
  · intro h
    obtain ⟨rest, hbytes⟩ := List.head?_eq_some_iff.mp h
    rw [← Text.Utf8.lossy_bytes text, hbytes, Text.Utf8.lossy, String.toList_ofList]
    rfl
  · intro h
    obtain ⟨rest, hchars⟩ := List.head?_eq_some_iff.mp h
    rw [Text.Utf8.bytes, hchars]
    rfl

lemma isSkipped_iff {name : FileName} :
    isSkipped name = true ↔ IsTextName name ∧ IsPassedOver name := by
  cases htext : Text.Utf8.text? name with
  | none =>
    have hnone : ¬ IsTextName name := by simp [isTextName_iff, htext]
    simp [isSkipped, htext, hnone, packagesDirectory]
  | some text =>
    obtain rfl := Text.text?_eq_some_iff.mp htext
    have hnode : Text.Utf8.bytes text = Text.Utf8.bytes "node_modules" ↔ text = "node_modules" :=
      ⟨Text.bytes_inj, congrArg Text.Utf8.bytes⟩
    have htextName : IsTextName (Text.Utf8.bytes text) := ⟨text, rfl⟩
    simp [isSkipped, packagesDirectory, IsPassedOver, FileName.ofText, head?_bytes_eq_dot_iff,
      hnode, htextName]

lemma isSkipped_eq_false_iff {name : FileName} :
    isSkipped name = false ↔ (IsTextName name → ¬ IsPassedOver name) := by
  rw [← Bool.not_eq_true, isSkipped_iff, not_and]

lemma hasExtension_iff {extensions : List String} {path : Path} :
    hasExtension extensions path = true ↔
      ∃ extension, path.extension? = some (.ofText extension) ∧ extension ∈ extensions := by
  simp only [← Path.extensionText?_eq_some_iff]
  unfold hasExtension
  cases path.extension?.bind Text.Utf8.text? <;> simp

lemma hasExtension_descend {extensions : List String} {names : List FileName} {base : Path}
    (hbase : base.bytes ≠ []) (hnames : ∀ name ∈ names, IsPlainName name) (hne : names ≠ []) :
    hasExtension extensions (base.descend names) = true ↔
      ∃ name extension, names.getLast? = some name ∧
        Path.HasExtension name (.ofText extension) ∧ extension ∈ extensions := by
  have hlast := List.getLast?_eq_some_getLast hne
  rw [hasExtension_iff, Path.extension?_descend hbase hnames hlast, hlast]
  simp only [Path.extensionOf?_eq_some_iff, Option.some.injEq, exists_and_left, exists_eq_left']

/-- What leads to a file without passing a directory that is skipped is what is found. -/
theorem finds_iff_at? {entries : List (FileName × Node)} {names : List FileName}
    (hsound : (Node.directory entries).isSound = true) : Finds entries names ↔
      (∃ content, (Node.directory entries).at? names = some (.file content)) ∧
        ∀ name ∈ names.dropLast, isSkipped name = false := by
  constructor
  · intro h
    refine ⟨h.at? hsound, ?_⟩
    clear hsound
    induction h with
    | file mem => simp
    | inside mem listed tail ih =>
      rw [List.dropLast_cons_of_ne_nil tail.ne_nil]
      exact List.forall_mem_cons.mpr ⟨listed, ih⟩
  · rintro ⟨⟨content, hfile⟩, hlisted⟩
    induction names generalizing entries with
    | nil => cases hfile
    | cons name names ih =>
      obtain ⟨child, hchild, hrest⟩ := Option.bind_eq_some_iff.mp hfile
      have hmem := mem_of_lookup hchild
      cases child with
      | file content' =>
        cases names with
        | nil => exact .file hmem
        | cons name' names => cases hrest
      | closed fault => cases names <;> cases hrest
      | link target => cases names <;> cases hrest
      | directory inner =>
        have hne : names ≠ [] := by
          rintro rfl
          cases hrest
        rw [List.dropLast_cons_of_ne_nil hne, List.forall_mem_cons] at hlisted
        have hinner := (isSound_of_mem (areSound_of_isSound hsound) hmem).2
        exact .inside hmem hlisted.1 (ih hinner hlisted.2 hrest)

lemma documentsOf_cons (extensions : List String) (base : Path) (entry : FileName × Node)
    (rest : List (FileName × Node)) : documentsOf extensions base (entry :: rest) =
      documentsOf extensions base [entry] ++ documentsOf extensions base rest := by
  obtain ⟨name, node⟩ := entry
  cases node with
  | file content => simp [documentsOf]
  | closed fault => simp [documentsOf]
  | link target => simp [documentsOf]
  | directory inner => simp [documentsOf]

lemma documentsOf_subset {extensions : List String} {base : Path} {entry : FileName × Node}
    {entries : List (FileName × Node)} (h : entry ∈ entries) :
    documentsOf extensions base [entry] ⊆ documentsOf extensions base entries := by
  induction entries with
  | nil => cases h
  | cons first rest ih =>
    rw [documentsOf_cons extensions base first rest]
    rcases List.mem_cons.mp h with rfl | h
    · exact List.subset_append_left _ _
    · exact List.Subset.trans (ih h) (List.subset_append_right _ _)

lemma Finds.mem_documentsOf {extensions : List String} {base : Path}
    {entries : List (FileName × Node)} {names : List FileName} (h : Finds entries names)
    (hextension : hasExtension extensions (base.descend names) = true) :
    base.descend names ∈ documentsOf extensions base entries := by
  induction h generalizing base with
  | @file entries name content mem =>
    apply documentsOf_subset mem
    rw [Path.descend_cons, Path.descend_nil] at hextension
    simp [documentsOf, hextension]
  | @inside entries inner name names mem listed tail ih =>
    apply documentsOf_subset mem
    rw [documentsOf_directory, listed]
    exact List.mem_append_left _ (ih hextension)

lemma isDocument_iff {extensions : List String} {names : List FileName} {base : Path}
    {entries : List (FileName × Node)} (hbase : base.bytes ≠ [])
    (hsound : (Node.directory entries).isSound = true) :
    IsDocument extensions entries names ↔
      Finds entries names ∧ hasExtension extensions (base.descend names) = true := by
  have hplain (h : Finds entries names) := h.isPlainName (areSound_of_isSound hsound)
  constructor
  · rintro ⟨hfile, hlisted, hextension⟩
    have hfinds : Finds entries names := (finds_iff_at? hsound).mpr
      ⟨hfile, fun name hname => isSkipped_eq_false_iff.mpr (hlisted name hname)⟩
    exact ⟨hfinds, (hasExtension_descend hbase (hplain hfinds) hfinds.ne_nil).mpr hextension⟩
  · rintro ⟨hfinds, hextension⟩
    obtain ⟨hfile, hlisted⟩ := (finds_iff_at? hsound).mp hfinds
    exact ⟨hfile, fun name hname => isSkipped_eq_false_iff.mp (hlisted name hname),
      (hasExtension_descend hbase (hplain hfinds) hfinds.ne_nil).mp hextension⟩

/-! ### The order in which entries are listed -/

theorem documentsOf_relisted {extensions : List String} {entries entries' : List (FileName × Node)}
    (h : Relisted entries entries') (base : Path) :
    (documentsOf extensions base entries).Perm (documentsOf extensions base entries') := by
  induction h generalizing base with
  | nil => exact .nil
  | @keep entry rest rest' tail ih =>
    rw [documentsOf_cons extensions base entry rest, documentsOf_cons extensions base entry rest']
    exact (ih base).append_left _
  | inside name head tail ihhead ih =>
    rw [documentsOf_directory, documentsOf_directory]
    refine List.Perm.append ?_ (ih base)
    split
    · exact .nil
    · exact ihhead _
  | swap first second rest =>
    rw [documentsOf_cons extensions base first (second :: rest),
      documentsOf_cons extensions base second rest,
      documentsOf_cons extensions base second (first :: rest),
      documentsOf_cons extensions base first rest]
    exact List.perm_append_comm_assoc _ _ _
  | trans first second ih ih' => exact (ih base).trans (ih' base)

lemma unlistedOf_cons (base : Path) (entry : FileName × Node) (rest : List (FileName × Node)) :
    unlistedOf base (entry :: rest) = (unlistedOf base [entry]).or (unlistedOf base rest) := by
  obtain ⟨name, node⟩ := entry
  simp [unlistedOf]

lemma unlistedIn_eq_none_iff {base : Path} {entries : List (FileName × Node)} :
    unlistedIn base (.directory entries) = none ↔
      base.bytes.length ≤ maxPathSize ∧ unlistedOf base entries = none := by
  rw [unlistedIn]
  by_cases hsize : maxPathSize < base.bytes.length
  · simp [hsize, Nat.not_le.mpr hsize]
  · simp [hsize, Nat.not_lt.mp hsize]

lemma unlistedOf_directory_eq_none_iff {base : Path} {name : FileName}
    {inner : List (FileName × Node)} : unlistedOf base [(name, .directory inner)] = none ↔
      (isSkipped name = false → (base.join ⟨name⟩).bytes.length ≤ maxPathSize ∧
        unlistedOf (base.join ⟨name⟩) inner = none) := by
  rw [← unlistedIn_eq_none_iff]
  cases hskipped : isSkipped name <;> simp [unlistedOf, hskipped]

theorem unlistedOf_relisted {entries entries' : List (FileName × Node)}
    (h : Relisted entries entries') (base : Path) :
    unlistedOf base entries = none ↔ unlistedOf base entries' = none := by
  induction h generalizing base with
  | nil => exact Iff.rfl
  | @keep entry rest rest' tail ih =>
    rw [unlistedOf_cons base entry rest, unlistedOf_cons base entry rest', Option.or_eq_none_iff,
      Option.or_eq_none_iff, ih base]
  | @inside name inner inner' rest rest' head tail ihhead ih =>
    rw [unlistedOf_cons base _ rest, unlistedOf_cons base _ rest', Option.or_eq_none_iff,
      Option.or_eq_none_iff, unlistedOf_directory_eq_none_iff, unlistedOf_directory_eq_none_iff,
      ihhead, ih base]
  | swap first second rest =>
    rw [unlistedOf_cons base first (second :: rest), unlistedOf_cons base second rest,
      unlistedOf_cons base second (first :: rest), unlistedOf_cons base first rest]
    simp only [Option.or_eq_none_iff]
    exact and_left_comm
  | trans first second ih ih' => exact (ih base).trans (ih' base)

lemma areBelow_documentsOf {extensions : List String} {base : Path}
    {entries : List (FileName × Node)} (hsound : (Node.directory entries).isSound = true) :
    base.AreBelow (documentsOf extensions base entries) := by
  intro path hpath
  obtain ⟨names, hnames, rfl⟩ := exists_finds_of_mem hpath
  exact ⟨names, hnames.isPlainName (areSound_of_isSound hsound), rfl⟩

/-- Trees that differ in the order in which their directories are listed have the same documents,
in the same order. -/
theorem discover_relisted {disk disk' : Disk} (hsound : disk.root.isSound = true)
    (hdirectory : disk'.directory = disk.directory) (hroot : disk.root.Relisted disk'.root)
    {root : Path} {extensions : List String} {paths : List Path}
    (hpaths : discover disk root extensions = .ok paths) :
    discover disk' root extensions = .ok paths := by
  obtain ⟨entries, hlocate, hlisted, rfl⟩ := discover_eq_ok_iff.mp hpaths
  obtain ⟨place, hplace, hentries⟩ := locate_eq_ok_iff.mp hlocate
  have hbase := (Disk.place_eq_ok_iff.mp hplace).1
  have hdirsound := Node.isSound_at? hsound hentries
  rw [← Disk.place_congr hdirectory (hroot.sameShape hsound)] at hplace
  have hnode := hroot.at? hsound place.reverse
  rw [hentries] at hnode
  obtain ⟨node, hnode', hrel⟩ := exists_of_rel_some hnode
  obtain ⟨entries', rfl, hrelisted⟩ := hrel.exists_entries
  refine discover_eq_ok_iff.mpr ⟨entries', locate_eq_ok_iff.mpr ⟨place, hplace, hnode'⟩, ?_, ?_⟩
  · rw [unlistedIn_eq_none_iff] at hlisted ⊢
    rwa [← unlistedOf_relisted hrelisted]
  · rw [documentsIn, documentsIn]
    exact ((areBelow_documentsOf hdirsound).sort_eq_of_perm hbase
      (nodup_documentsOf hbase hdirsound) (documentsOf_relisted hrelisted root)).symm

lemma exists_names {entries : List (FileName × Node)} {base : Path} {paths : List Path}
    (h : ∀ path ∈ paths, ∃ names, Finds entries names ∧ path = base.descend names) :
    ∃ files : List (List FileName), paths = files.map base.descend ∧
      ∀ names ∈ files, Finds entries names := by
  induction paths with
  | nil => exact ⟨[], rfl, by simp⟩
  | cons path paths ih =>
    obtain ⟨⟨names, hnames, rfl⟩, hrest⟩ := List.forall_mem_cons.mp h
    obtain ⟨files, rfl, hfiles⟩ := ih hrest
    exact ⟨names :: files, rfl, List.forall_mem_cons.mpr ⟨hnames, hfiles⟩⟩

/-- What lies below a content root that is itself hidden: a link back to the root, a directory that
is skipped, and two documents, whose order by their paths is not that of the written texts. -/
def loopEntries : List (FileName × Node) :=
  [(.ofText "a-b.mdx", .file (.ok .empty)),
    (.ofText "a", .directory [(.ofText "loop", .link (.ofText "/.p")),
      (.ofText ".c.mdx", .file (.ok .empty))]),
    (.ofText ".drafts", .directory [(.ofText "d.mdx", .file (.ok .empty))])]

def loopDisk (entries : List (FileName × Node)) : Disk :=
  ⟨.directory [(.ofText ".p", .directory entries)], .ofText "/"⟩

/-- A document in a hidden directory whose name, a dot and the byte `ff`, is not UTF-8. -/
def hiddenEntries : List (FileName × Node) :=
  [([0x2e, 0xff], .directory [(.ofText "x.mdx", .file (.ok .empty))])]

end PuzzleGate.Corpus
