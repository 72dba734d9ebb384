import PuzzleGate.Proofs.Corpus.Discovery
import PuzzleGate.Proofs.Corpus.Run
import PuzzleGate.Proofs.Files.Absolute

/-!
# What a run reads

A run looks at its root, lists directories on the way down from it, and reads the documents that it
finds there. All of these have paths that begin with the root, and a tree in which the same is found
at these paths gives the same report.
-/

namespace PuzzleGate.Corpus

open Files PuzzleGate.Path

variable {disk disk' : Disk} {root path : Path} {extensions : List String}

mutual

/-- The directories that are listed in a search below a directory whose own path is `path`. -/
def listedIn (path : Path) : Node → List Path
  | .directory entries => path :: listedOf path entries
  | .closed _ => [path]
  | .file _ | .link _ => []

def listedOf (path : Path) : List (FileName × Node) → List Path
  | [] => []
  | (name, node) :: rest =>
    (if isSkipped name then [] else listedIn (path.join ⟨name⟩) node) ++ listedOf path rest

end

/-- The paths that are read in a search below the root, with those of the documents it finds. -/
def searched (disk : Disk) (root : Path) (extensions : List String) : List Path :=
  root :: ((disk.locate root).toOption.elim [] (listedIn root) ++
    (discover disk root extensions).toOption.getD [])

lemma listedOf_directory (base : Path) (name : FileName) (inner rest : List (FileName × Node)) :
    listedOf base ((name, .directory inner) :: rest) =
      (if isSkipped name then [] else base.join ⟨name⟩ :: listedOf (base.join ⟨name⟩) inner) ++
        listedOf base rest := by
  rw [listedOf, listedIn]

lemma exists_listed_cons {P : Path → Prop} {base : Path} {rest : List (FileName × Node)}
    (entry : FileName × Node) (h : ∃ directory ∈ base :: listedOf base rest, P directory) :
    ∃ directory ∈ base :: listedOf base (entry :: rest), P directory := by
  obtain ⟨directory, hmem, hdirectory⟩ := h
  rw [listedOf]
  exact ⟨directory, List.cons_subset_cons base (List.subset_append_right _ _) hmem, hdirectory⟩

lemma exists_listed_of_mem_documentsOf {base : Path} {entries : List (FileName × Node)}
    (h : path ∈ documentsOf extensions base entries) :
    ∃ directory ∈ base :: listedOf base entries, ∃ name, path = directory.join ⟨name⟩ := by
  induction entries using entries_induction generalizing base with
  | nil => cases h
  | file name content rest ih =>
    rw [documentsOf] at h
    rcases List.mem_append.mp h with h | h
    · split at h
      · exact ⟨base, List.mem_cons_self .., name, List.mem_singleton.mp h⟩
      · cases h
    · exact exists_listed_cons _ (ih h)
  | link name target rest ih =>
    rw [documentsOf] at h
    exact exists_listed_cons _ (ih h)
  | closed name fault rest ih =>
    rw [documentsOf] at h
    exact exists_listed_cons _ (ih h)
  | directory name inner rest ihinner ih =>
    rw [documentsOf_directory] at h
    rcases List.mem_append.mp h with h | h
    · split_ifs at h with hskipped
      · cases h
      · obtain ⟨directory, hdirectory, hname⟩ := ihinner h
        rw [listedOf_directory, if_neg hskipped]
        exact ⟨directory, List.mem_cons_of_mem _ (List.mem_append_left _ hdirectory), hname⟩
    · exact exists_listed_cons _ (ih h)

lemma isAbsolute_of_mem_listedOf {base : Path} {entries : List (FileName × Node)}
    (hbase : base.isAbsolute = true) (h : path ∈ listedOf base entries) :
    path.isAbsolute = true := by
  have hinside (name : FileName) := isAbsolute_join_of_isAbsolute hbase ⟨name⟩
  induction entries using entries_induction generalizing base with
  | nil => cases h
  | file name content rest ih =>
    rw [listedOf, listedIn, ite_self] at h
    exact ih hbase h hinside
  | link name target rest ih =>
    rw [listedOf, listedIn, ite_self] at h
    exact ih hbase h hinside
  | closed name fault rest ih =>
    rw [listedOf, listedIn] at h
    rcases List.mem_append.mp h with h | h
    · split_ifs at h with hskipped
      · cases h
      · obtain rfl := List.mem_singleton.mp h
        exact hinside name
    · exact ih hbase h hinside
  | directory name inner rest ihinner ih =>
    rw [listedOf_directory] at h
    rcases List.mem_append.mp h with h | h
    · split_ifs at h with hskipped
      · cases h
      · rcases List.mem_cons.mp h with rfl | h
        · exact hinside name
        · exact ihinner (hinside name) h fun name' =>
            isAbsolute_join_of_isAbsolute (hinside name) ⟨name'⟩
    · exact ih hbase h hinside

lemma isAbsolute_of_mem_discover {paths : List Path}
    (hpaths : discover disk root extensions = .ok paths) (hroot : root.isAbsolute = true)
    (h : path ∈ paths) : path.isAbsolute = true := by
  obtain ⟨entries, -, -, rfl⟩ := discover_eq_ok_iff.mp hpaths
  rw [documentsIn, List.mem_mergeSort] at h
  obtain ⟨directory, hdirectory, name, rfl⟩ := exists_listed_of_mem_documentsOf h
  rcases List.mem_cons.mp hdirectory with rfl | hdirectory
  · exact isAbsolute_join_of_isAbsolute hroot ⟨name⟩
  · exact isAbsolute_join_of_isAbsolute (isAbsolute_of_mem_listedOf hroot hdirectory) ⟨name⟩

theorem isAbsolute_of_mem_searched (hroot : root.isAbsolute = true)
    (h : path ∈ searched disk root extensions) : path.isAbsolute = true := by
  rw [searched, List.mem_cons, List.mem_append] at h
  rcases h with rfl | h | h
  · exact hroot
  · cases hnode : disk.locate root with
    | error fault =>
      rw [hnode] at h
      cases h
    | ok node =>
      rw [hnode] at h
      cases node with
      | file content => cases h
      | link target => cases h
      | closed fault =>
        obtain rfl := List.mem_singleton.mp h
        exact hroot
      | directory entries =>
        rcases List.mem_cons.mp h with rfl | h
        · exact hroot
        · exact isAbsolute_of_mem_listedOf hroot h
  · cases hpaths : discover disk root extensions with
    | error fault =>
      rw [hpaths] at h
      cases h
    | ok paths =>
      rw [hpaths] at h
      exact isAbsolute_of_mem_discover hpaths hroot h

lemma discover_congr (h : disk'.locate root = disk.locate root) (extensions : List String) :
    discover disk' root extensions = discover disk root extensions := by
  unfold discover
  rw [h]

namespace Walker

variable {walker : Walker}

lemma result_congr (h : disk'.locate path = disk.locate path) :
    walker.result disk' path = walker.result disk path := by
  unfold result validatePath
  rw [Disk.readText_congr h]

lemma runSingle_congr (h : disk'.locate path = disk.locate path) :
    walker.runSingle disk' path = walker.runSingle disk path := by
  unfold runSingle
  rw [result_congr h]

/-- A run depends on nothing but what is found at the paths that it reads. -/
theorem run_congr (h : ∀ path ∈ searched disk walker.root walker.extensions,
      disk'.locate path = disk.locate path) :
    walker.run disk' = walker.run disk := by
  have hdiscover := discover_congr (h walker.root (List.mem_cons_self ..)) walker.extensions
  unfold run
  rw [hdiscover]
  cases hpaths : discover disk walker.root walker.extensions with
  | error fault => rfl
  | ok paths =>
    have hresults : paths.map (walker.result disk') = paths.map (walker.result disk) := by
      refine List.map_congr_left fun path hpath => result_congr (h path ?_)
      rw [searched, hpaths]
      exact List.mem_cons_of_mem _ (List.mem_append_right _ hpath)
    simp only [bind, Except.bind, Except.mapError, hresults]

end Walker

end PuzzleGate.Corpus
