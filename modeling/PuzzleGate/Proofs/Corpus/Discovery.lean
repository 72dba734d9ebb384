import Mathlib.Data.List.Nodup
import PuzzleGate.Corpus.Discovery
import PuzzleGate.Proofs.Files.Content

/-!
# Documents that are found

A search goes through directories by their names to a file, and the path of the document is the
path of the root with these names behind it. Different documents are reached by different names,
so they have different paths, stand in different places and have different identifiers.
-/

namespace PuzzleGate.Corpus

open Files

/-- Induction over the entries of a directory and of all directories inside. -/
@[elab_as_elim]
theorem entries_induction {motive : List (FileName × Node) → Prop} (nil : motive [])
    (file : ∀ name content rest, motive rest → motive ((name, .file content) :: rest))
    (link : ∀ name target rest, motive rest → motive ((name, .link target) :: rest))
    (closed : ∀ name fault rest, motive rest → motive ((name, .closed fault) :: rest))
    (directory : ∀ name inner rest, motive inner → motive rest →
      motive ((name, .directory inner) :: rest)) :
    ∀ entries, motive entries
  | [] => nil
  | (name, .file content) :: rest =>
    file name content rest (entries_induction nil file link closed directory rest)
  | (name, .link target) :: rest =>
    link name target rest (entries_induction nil file link closed directory rest)
  | (name, .closed fault) :: rest =>
    closed name fault rest (entries_induction nil file link closed directory rest)
  | (name, .directory inner) :: rest =>
    directory name inner rest (entries_induction nil file link closed directory inner)
      (entries_induction nil file link closed directory rest)

/-- From a directory with these entries the names lead, through directories that are not skipped,
to a file. -/
inductive Finds : List (FileName × Node) → List FileName → Prop where
  | file {entries : List (FileName × Node)} {name : FileName} {content : Except Fault ByteArray}
      (mem : (name, .file content) ∈ entries) : Finds entries [name]
  | inside {entries inner : List (FileName × Node)} {name : FileName} {names : List FileName}
      (mem : (name, .directory inner) ∈ entries) (listed : isSkipped name = false)
      (tail : Finds inner names) : Finds entries (name :: names)

lemma Finds.mono {entries entries' : List (FileName × Node)} {names : List FileName}
    (h : Finds entries names) (hsub : entries ⊆ entries') : Finds entries' names := by
  cases h with
  | file mem => exact .file (hsub mem)
  | inside mem listed tail => exact .inside (hsub mem) listed tail

lemma exists_finds_cons {P : List FileName → Prop} {entries : List (FileName × Node)}
    (entry : FileName × Node) (h : ∃ names, Finds entries names ∧ P names) :
    ∃ names, Finds (entry :: entries) names ∧ P names := by
  obtain ⟨names, hfinds, hnames⟩ := h
  exact ⟨names, hfinds.mono (List.subset_cons_self _ _), hnames⟩

lemma Finds.ne_nil {entries : List (FileName × Node)} {names : List FileName}
    (h : Finds entries names) : names ≠ [] := by
  cases h <;> simp

lemma Finds.head_mem {entries : List (FileName × Node)} {name : FileName} {names : List FileName}
    (h : Finds entries (name :: names)) : name ∈ entries.map Prod.fst := by
  cases h with
  | file mem => exact List.mem_map.mpr ⟨_, mem, rfl⟩
  | inside mem listed tail => exact List.mem_map.mpr ⟨_, mem, rfl⟩

lemma documentsOf_directory (extensions : List String) (base : Path) (name : FileName)
    (inner rest : List (FileName × Node)) :
    documentsOf extensions base ((name, .directory inner) :: rest) =
      (if isSkipped name then [] else documentsOf extensions (base.join ⟨name⟩) inner) ++
        documentsOf extensions base rest := by
  rw [documentsOf, documentsIn]

lemma exists_document_of_mem {extensions : List String} {base path : Path}
    {entries : List (FileName × Node)} (h : path ∈ documentsOf extensions base entries) :
    ∃ names, Finds entries names ∧ path = base.descend names ∧
      hasExtension extensions path = true := by
  induction entries using entries_induction generalizing base with
  | nil => cases h
  | file name content rest ih =>
    rw [documentsOf] at h
    rcases List.mem_append.mp h with h | h
    · split at h
      · rename_i hextension
        obtain rfl := List.mem_singleton.mp h
        exact ⟨[name], .file (List.mem_cons_self ..), rfl, hextension⟩
      · cases h
    · exact exists_finds_cons _ (ih h)
  | link name target rest ih =>
    rw [documentsOf] at h
    exact exists_finds_cons _ (ih h)
  | closed name fault rest ih =>
    rw [documentsOf] at h
    exact exists_finds_cons _ (ih h)
  | directory name inner rest ihinner ih =>
    rw [documentsOf_directory] at h
    rcases List.mem_append.mp h with h | h
    · split at h
      · cases h
      · rename_i hlisted
        obtain ⟨names, hfinds, hpath⟩ := ihinner h
        exact ⟨name :: names, .inside (List.mem_cons_self ..) (by simpa using hlisted) hfinds,
          hpath⟩
    · exact exists_finds_cons _ (ih h)

lemma exists_finds_of_mem {extensions : List String} {base path : Path}
    {entries : List (FileName × Node)} (h : path ∈ documentsOf extensions base entries) :
    ∃ names, Finds entries names ∧ path = base.descend names := by
  obtain ⟨names, hfinds, hpath, -⟩ := exists_document_of_mem h
  exact ⟨names, hfinds, hpath⟩

lemma Finds.isPlainName {entries : List (FileName × Node)} {names : List FileName}
    (h : Finds entries names) (hsound : areSound entries = true) :
    ∀ name ∈ names, IsPlainName name := by
  induction h with
  | file mem =>
    intro name hname
    obtain rfl := List.mem_singleton.mp hname
    exact (isEntryName_iff.mp (isSound_of_mem hsound mem).1).1
  | inside mem listed tail ih =>
    obtain ⟨hentry, hinner⟩ := isSound_of_mem hsound mem
    rw [Node.isSound, Bool.and_eq_true] at hinner
    intro name hname
    rcases List.mem_cons.mp hname with rfl | hname
    · exact (isEntryName_iff.mp hentry).1
    · exact ih hinner.2 name hname

lemma descend_not_mem_documentsOf {extensions : List String} {base : Path}
    {rest : List (FileName × Node)} {name : FileName} {names : List FileName}
    (hbase : base.bytes ≠ []) (hname : name ∉ rest.map Prod.fst)
    (hnames : ∀ n ∈ name :: names, IsPlainName n) (hrest : areSound rest = true) :
    base.descend (name :: names) ∉ documentsOf extensions base rest := by
  intro hmem
  obtain ⟨names', hfinds, heq⟩ := exists_finds_of_mem hmem
  obtain rfl := Path.descend_inj hbase hnames (hfinds.isPlainName hrest) heq
  exact hname hfinds.head_mem

theorem nodup_documentsOf {extensions : List String} {base : Path}
    {entries : List (FileName × Node)} (hbase : base.bytes ≠ [])
    (hsound : (Node.directory entries).isSound = true) :
    (documentsOf extensions base entries).Nodup := by
  induction entries using entries_induction generalizing base with
  | nil => exact List.nodup_nil
  | file name content rest ih =>
    obtain ⟨hname, hentry, -, hrest⟩ := isSound_cons hsound
    rw [documentsOf, List.nodup_append']
    refine ⟨?_, ih hbase hrest, fun path hpath => ?_⟩
    · split <;> simp
    · split at hpath
      · obtain rfl := List.mem_singleton.mp hpath
        refine @descend_not_mem_documentsOf extensions base rest name [] hbase hname ?_
          (areSound_of_isSound hrest)
        intro n hn
        obtain rfl := List.mem_singleton.mp hn
        exact (isEntryName_iff.mp hentry).1
      · cases hpath
  | link name target rest ih =>
    rw [documentsOf]
    exact ih hbase (isSound_cons hsound).2.2.2
  | closed name fault rest ih =>
    rw [documentsOf]
    exact ih hbase (isSound_cons hsound).2.2.2
  | directory name inner rest ihinner ih =>
    obtain ⟨hname, hentry, hinner, hrest⟩ := isSound_cons hsound
    have hplain := (isEntryName_iff.mp hentry).1
    rw [documentsOf_directory, List.nodup_append']
    refine ⟨?_, ih hbase hrest, fun path hpath => ?_⟩
    · split
      · exact List.nodup_nil
      · exact ihinner (Path.bytes_join_ne base hplain.ne_empty) hinner
    · split at hpath
      · cases hpath
      · obtain ⟨names, hfinds, rfl⟩ := exists_finds_of_mem hpath
        refine descend_not_mem_documentsOf hbase hname ?_ (areSound_of_isSound hrest)
        intro n hn
        rcases List.mem_cons.mp hn with rfl | hn
        · exact hplain
        · exact hfinds.isPlainName (areSound_of_isSound hinner) n hn

lemma Finds.at? {entries : List (FileName × Node)} {names : List FileName} (h : Finds entries names)
    (hsound : (Node.directory entries).isSound = true) :
    ∃ content, (Node.directory entries).at? names = some (.file content) := by
  induction h with
  | @file entries name content mem =>
    have hlookup := lookup_of_mem (nodup_of_isSound hsound) mem
    exact ⟨content, at?_cons hlookup []⟩
  | @inside entries inner name names mem listed tail ih =>
    have hlookup := lookup_of_mem (nodup_of_isSound hsound) mem
    obtain ⟨content, hcontent⟩ := ih (isSound_of_mem (areSound_of_isSound hsound) mem).2
    exact ⟨content, by rw [at?_cons hlookup, hcontent]⟩

/-- A path that can be followed to a document arrives where its names lead from the place of the
root. -/
theorem Finds.place_eq {disk : Disk} {base : Path} {place place' : List FileName}
    {entries : List (FileName × Node)} {names : List FileName} (h : Finds entries names)
    (hsound : (Node.directory entries).isSound = true) (hbase : disk.place base = .ok place)
    (hplace : disk.root.at? place.reverse = some (.directory entries))
    (hpath : disk.place (base.descend names) = .ok place') : place' = names.reverse ++ place := by
  induction h generalizing base place with
  | @file entries name content mem =>
    obtain ⟨hentry, -⟩ := isSound_of_mem (areSound_of_isSound hsound) mem
    have hlookup := lookup_of_mem (nodup_of_isSound hsound) mem
    have hsize := (Disk.place_eq_ok_iff.mp hpath).2.2.1
    have hname := Disk.place_join hbase hplace hlookup (by simp) hentry hsize
    rw [Path.descend_cons, Path.descend_nil, hname] at hpath
    exact (Except.ok.inj hpath).symm
  | @inside entries inner name names mem listed tail ih =>
    obtain ⟨hentry, hinner⟩ := isSound_of_mem (areSound_of_isSound hsound) mem
    have hlookup := lookup_of_mem (nodup_of_isSound hsound) mem
    have hplain := tail.isPlainName (areSound_of_isSound hinner)
    -- the system takes the whole path, so it takes the shorter one of the directory
    have hsize : (base.join ⟨name⟩).bytes.length ≤ maxPathSize :=
      Nat.le_trans (Path.size_le_descend _ hplain) (Disk.place_eq_ok_iff.mp hpath).2.2.1
    have hname := Disk.place_join hbase hplace hlookup (by simp) hentry hsize
    have hdirectory : disk.root.at? (name :: place).reverse = some (.directory inner) := by
      rw [List.reverse_cons, at?_append hplace, at?_cons hlookup]
      rfl
    rw [ih hinner hname hdirectory hpath, List.reverse_cons, List.append_assoc]
    rfl

lemma discover_eq_ok_iff {disk : Disk} {root : Path} {extensions : List String}
    {paths : List Path} : discover disk root extensions = .ok paths ↔
    ∃ entries, disk.locate root = .ok (.directory entries) ∧
      unlistedIn root (.directory entries) = none ∧
      paths = (documentsIn extensions root (.directory entries)).mergeSort
        fun a b => (a.compare b).isLE := by
  unfold discover
  constructor
  · intro h
    split at h
    · cases h
    · rename_i node hlocate
      split_ifs at h with hdirectory
      split at h
      · cases h
      · rename_i hlisted
        cases node with
        | directory entries => exact ⟨entries, hlocate, hlisted, (Except.ok.inj h).symm⟩
        | closed fault => cases hlisted
        | file content => exact absurd rfl hdirectory
        | link target => exact absurd rfl hdirectory
  · rintro ⟨entries, hlocate, hlisted, rfl⟩
    rw [hlocate]
    simp [Node.isDirectory, hlisted]

/-! ### All documents -/

theorem exists_entries_of_discover {disk : Disk} {root : Path} {extensions : List String}
    {paths : List Path} (hsound : disk.root.isSound = true)
    (hpaths : discover disk root extensions = .ok paths) :
    ∃ entries place, root.bytes ≠ [] ∧ disk.place root = .ok place ∧
      disk.root.at? place.reverse = some (.directory entries) ∧
      (Node.directory entries).isSound = true ∧ paths.Nodup ∧
      ∀ path ∈ paths, ∃ names, Finds entries names ∧ path = root.descend names := by
  obtain ⟨entries, hlocate, -, rfl⟩ := discover_eq_ok_iff.mp hpaths
  obtain ⟨place, hplace, hentries⟩ := locate_eq_ok_iff.mp hlocate
  have hroot := (Disk.place_eq_ok_iff.mp hplace).1
  have hdirectory := Node.isSound_at? hsound hentries
  refine ⟨entries, place, hroot, hplace, hentries, hdirectory, ?_, fun path hpath => ?_⟩
  · rw [(List.mergeSort_perm _ _).nodup_iff]
    exact nodup_documentsOf hroot hdirectory
  · exact exists_finds_of_mem (List.mem_mergeSort.mp hpath)

/-- The names of the documents, and of the directories on the way to them, are UTF-8. -/
def HaveTextNames (root : Path) (paths : List Path) : Prop :=
  ∀ path ∈ paths, ∀ c ∈ path.components.drop root.components.length, IsTextName c.bytes

instance (root : Path) (paths : List Path) : Decidable (HaveTextNames root paths) :=
  inferInstanceAs (Decidable (∀ path ∈ paths, ∀ c ∈ _, IsTextName _))

theorem nodup_paths {disk : Disk} {root : Path} {extensions : List String} {paths : List Path}
    (hsound : disk.root.isSound = true) (hpaths : discover disk root extensions = .ok paths) :
    paths.Nodup := by
  obtain ⟨-, -, -, -, -, -, hnodup, -⟩ := exists_entries_of_discover hsound hpaths
  exact hnodup

/-- Documents with names that are UTF-8 are identified by their paths. -/
theorem nodup_documentIds {disk : Disk} {root : Path} {extensions : List String}
    {paths : List Path} (hsound : disk.root.isSound = true)
    (hpaths : discover disk root extensions = .ok paths) (htexts : HaveTextNames root paths) :
    (paths.map (documentId root)).Nodup := by
  obtain ⟨entries, place, hroot, -, -, hdirectory, hnodup, hfinds⟩ :=
    exists_entries_of_discover hsound hpaths
  have hplain := areSound_of_isSound hdirectory
  have htext {names : List FileName} (hnames : Finds entries names)
      (hpath : root.descend names ∈ paths) : ∀ name ∈ names, IsTextName name := by
    intro name hname
    have hcomponents := htexts _ hpath
    rw [Path.components_descend hroot (hnames.isPlainName hplain), List.drop_left] at hcomponents
    exact hcomponents (.name name) (List.mem_map_of_mem hname)
  refine List.Nodup.map_on (fun path hpath path' hpath' heq => ?_) hnodup
  obtain ⟨names, hnames, rfl⟩ := hfinds path hpath
  obtain ⟨names', hnames', rfl⟩ := hfinds path' hpath'
  rw [documentId_inj hroot (hnames.isPlainName hplain) (hnames'.isPlainName hplain)
    (htext hnames hpath) (htext hnames' hpath') hnames.ne_nil hnames'.ne_nil heq]

/-- Where the documents stand in the tree: each is a file of its own, and it is the one to which
its path leads, if the path can be followed at all. -/
structure ArePlaces (disk : Disk) (paths : List Path) (places : Path → List FileName) : Prop where
  file : ∀ path ∈ paths, ∃ content, disk.root.at? (places path).reverse = some (.file content)
  place : ∀ path ∈ paths, ∀ place, disk.place path = .ok place → place = places path
  distinct : ∀ path ∈ paths, ∀ other ∈ paths, places other = places path → other = path

theorem exists_arePlaces {disk : Disk} {root : Path} {extensions : List String}
    {paths : List Path} (hsound : disk.root.isSound = true)
    (hpaths : discover disk root extensions = .ok paths) :
    ∃ places, ArePlaces disk paths places := by
  obtain ⟨entries, base, hroot, hbase, hentries, hdirectory, -, hfinds⟩ :=
    exists_entries_of_discover hsound hpaths
  choose! names hnames hdescend using hfinds
  refine ⟨fun path => (names path).reverse ++ base, fun path hpath => ?_,
    fun path hpath place hplace => ?_, fun path hpath other hother heq => ?_⟩
  · obtain ⟨content, hcontent⟩ := (hnames path hpath).at? hdirectory
    refine ⟨content, ?_⟩
    rw [List.reverse_append, List.reverse_reverse, at?_append hentries, hcontent]
  · rw [hdescend path hpath] at hplace
    exact (hnames path hpath).place_eq hdirectory hbase hentries hplace
  · have hsame : names other = names path :=
      List.reverse_inj.mp (List.append_cancel_right heq)
    rw [hdescend path hpath, hdescend other hother, hsame]

lemma documentsOf_blank (extensions : List String) (base : Path)
    (entries : List (FileName × Node)) :
    documentsOf extensions base (blankEntries entries) = documentsOf extensions base entries := by
  induction entries using entries_induction generalizing base with
  | nil => rfl
  | file name content rest ih => rw [blankEntries, Node.blank, documentsOf, documentsOf, ih]
  | link name target rest ih => rw [blankEntries, Node.blank, documentsOf, documentsOf, ih]
  | closed name fault rest ih => rw [blankEntries, Node.blank, documentsOf, documentsOf, ih]
  | directory name inner rest ihinner ih =>
    rw [blankEntries, Node.blank, documentsOf_directory, documentsOf_directory, ihinner, ih]

lemma unlistedOf_blank (base : Path) (entries : List (FileName × Node)) :
    unlistedOf base (blankEntries entries) = unlistedOf base entries := by
  induction entries using entries_induction generalizing base with
  | nil => rfl
  | file name content rest ih =>
    rw [blankEntries, Node.blank, unlistedOf, unlistedOf, unlistedIn, unlistedIn, ih]
  | link name target rest ih => rw [blankEntries, Node.blank, unlistedOf, unlistedOf, ih]
  | closed name fault rest ih => rw [blankEntries, Node.blank, unlistedOf, unlistedOf, ih]
  | directory name inner rest ihinner ih =>
    rw [blankEntries, Node.blank, unlistedOf, unlistedOf, unlistedIn, unlistedIn, ihinner, ih]

theorem discover_of_blank {disk disk' : Disk} (hdirectory : disk'.directory = disk.directory)
    (hroot : disk'.root.blank = disk.root.blank) {root : Path} {extensions : List String}
    {paths : List Path} (hpaths : discover disk root extensions = .ok paths) :
    discover disk' root extensions = .ok paths := by
  obtain ⟨entries, hlocate, hlisted, rfl⟩ := discover_eq_ok_iff.mp hpaths
  obtain ⟨place, hplace, hentries⟩ := locate_eq_ok_iff.mp hlocate
  rw [← disk.place_of_blank disk' hdirectory hroot root] at hplace
  have hnode := congrArg (fun root => root.at? place.reverse) hroot
  simp only [at?_blank, hentries, Option.map_some] at hnode
  obtain ⟨node, hnode', hblank⟩ := Option.map_eq_some_iff.mp hnode
  cases node with
  | file content => cases hblank
  | closed fault => cases hblank
  | link target => cases hblank
  | directory entries' =>
    have hsame : blankEntries entries' = blankEntries entries := Node.directory.inj hblank
    have hdocuments : documentsOf extensions root entries' =
        documentsOf extensions root entries := by
      rw [← documentsOf_blank, hsame, documentsOf_blank]
    have hunlisted : unlistedOf root entries' = unlistedOf root entries := by
      rw [← unlistedOf_blank, hsame, unlistedOf_blank]
    refine discover_eq_ok_iff.mpr ⟨entries', locate_eq_ok_iff.mpr ⟨place, hplace, hnode'⟩, ?_, ?_⟩
    · rw [unlistedIn] at hlisted ⊢
      rw [hunlisted]
      exact hlisted
    · rw [documentsIn, documentsIn, hdocuments]

end PuzzleGate.Corpus
