import PuzzleGate.Proofs.Corpus.Footprint
import PuzzleGate.Proofs.Gate
import PuzzleGate.Proofs.Stages

/-!
# Runs from different directories

Paths of the command line are taken against the working directory, and those of the configuration
against the directory of its file. When the configuration file and all paths of a request to
validate are absolute, nothing is read by a relative path, the compiler is started in the directory
of the configuration file, and the working directory makes no difference to the answer.
-/

namespace PuzzleGate

open Files Corpus PuzzleGate.Path

lemma Config.directoryOf_of_parent? {file parent : Path} (hparent : file.parent? = some parent)
    (h : parent.isAbsolute = true) : Config.directoryOf file = parent := by
  rw [directoryOf, hparent]
  exact if_neg (bytes_ne_of_isAbsolute h)

lemma Config.directoryOf_of_readText {disk : Disk} {file : Path} {text : String}
    (hfile : file.isAbsolute = true) (h : disk.readText file = .ok text) :
    (Config.directoryOf file).isAbsolute = true ∧
      ∃ name, file.components = (Config.directoryOf file).components ++ [.name name] := by
  obtain ⟨content, hcontent⟩ := Disk.exists_file_of_readText h
  obtain ⟨front, name, hname⟩ := Disk.exists_name_of_file hfile hcontent
  have hroot : file.components ≠ [.root] := by
    intro hroot
    have hlast := congrArg List.getLast? (hname.symm.trans hroot)
    simp at hlast
  obtain ⟨parent, c, hparent, habsolute, hcomponents⟩ := exists_parent?_of_isAbsolute hfile hroot
  rw [Config.directoryOf_of_parent? hparent habsolute]
  refine ⟨habsolute, name, ?_⟩
  have hsame := hcomponents.symm.trans hname
  obtain ⟨-, hc⟩ := List.append_inj' hsame rfl
  rw [hcomponents, hc]

lemma AllowList.load_congr {disk disk' : Disk} {path : Path}
    (h : disk'.locate path = disk.locate path) :
    AllowList.load disk' path = AllowList.load disk path := by
  unfold AllowList.load
  rw [Disk.readText_congr h]

/-- A command that is run in an absolute directory does not see the working directory. -/
lemma Command.diskOf_of_isAbsolute {disk disk' : Disk} (hroot : disk'.root = disk.root)
    {command : Command} {directory : Path} (hcommand : command.directory = some directory)
    (h : directory.isAbsolute = true) : command.diskOf disk' = command.diskOf disk := by
  have hinside : disk'.inside directory = disk.inside directory := by
    rw [Disk.inside, Disk.inside, join_of_isAbsolute _ h, join_of_isAbsolute _ h, hroot]
  unfold diskOf
  rw [hcommand]
  dsimp only
  rw [Disk.locate_of_isAbsolute hroot h, hinside]

lemma Compiler.ofCommand_of_isAbsolute {disk disk' : Disk} (hroot : disk'.root = disk.root)
    {command : Command} {directory : Path} (hcommand : command.directory = some directory)
    (h : directory.isAbsolute = true) :
    Compiler.ofCommand disk' command = Compiler.ofCommand disk command := by
  funext raw
  unfold Compiler.ofCommand Command.run
  rw [Command.diskOf_of_isAbsolute hroot hcommand h]

namespace Cli

/-- The compiler that the configuration names, where `start` says what a command does. -/
def startedCompiler (start : Command → Compiler) (config : Config) :
    Except RequestFault Compiler := do
  let (program, arguments) ← config.program.mapError fun fault => .badConfig (.unusable fault)
  return start ⟨program, arguments, some config.baseDirectory⟩

/-- The answer to an invocation with the compiler that is chosen for its configuration. -/
def Invocation.answerBy (choose : Config → Except RequestFault Compiler) (invocation : Invocation)
    (disk : Disk) (time : String) : Except RequestFault Answer := do
  let config ← loadConfig disk invocation.config disk.directory
  let compiler ← choose config
  invocation.request.answer disk config disk.directory compiler time

lemma Invocation.answer_eq_answerBy (invocation : Invocation) (disk : Disk)
    (given : Option Compiler) (time : String) : invocation.answer disk given time =
      invocation.answerBy (chosenCompiler disk · given) disk time := rfl

lemma startedCompiler_congr {start start' : Command → Compiler} {config : Config}
    (h : ∀ command, command.directory = some config.baseDirectory →
      start' command = start command) :
    startedCompiler start' config = startedCompiler start config := by
  unfold startedCompiler
  cases config.program with
  | error fault => rfl
  | ok command => exact congrArg Except.ok (h _ rfl)

lemma chosenCompiler_none (disk : Disk) (config : Config) : chosenCompiler disk config none =
    startedCompiler (Compiler.ofCommand disk) config := rfl

lemma exists_written_of_loadConfig {disk : Disk} {file directory : Path} {config : Config}
    (h : loadConfig disk (some file) directory = .ok config) :
    ∃ text written, disk.readText (directory.join file) = .ok text ∧
      Config.ofText text = .ok written ∧
      config = { written with baseDirectory := Config.directoryOf (directory.join file) } := by
  unfold loadConfig Config.discover Config.load at h
  simp only [bind_eq_ok, mapError_eq_ok, Option.map_some, pure_eq_ok] at h
  obtain ⟨loaded, ⟨text, hread, written, hwritten, rfl⟩, -, -, rfl⟩ := h
  exact ⟨text, written, hread, hwritten, rfl⟩

lemma loadConfig_congr {disk disk' : Disk} {file directory directory' : Path}
    (hfile : file.isAbsolute = true) (h : disk'.locate file = disk.locate file) :
    loadConfig disk' (some file) directory' = loadConfig disk (some file) directory := by
  unfold loadConfig Config.discover Config.load
  simp only [Option.map_some, join_of_isAbsolute _ hfile, Disk.readText_congr h]

namespace ValidateRequest

/-- The paths that the request gives are absolute. -/
structure IsAbsolute (request : ValidateRequest) : Prop where
  path : ∀ path ∈ request.path, path.isAbsolute = true
  root : ∀ path ∈ request.root, path.isAbsolute = true
  allowList : ∀ path ∈ request.allowList, path.isAbsolute = true

/-- The allow-list file, if one is read. -/
def listFile (request : ValidateRequest) (config : Config) (directory : Path) : Option Path :=
  match request.allowList with
  | some path => some (directory.join path)
  | none => config.allowList.map config.resolve

/-- The content root. -/
def contentRoot (request : ValidateRequest) (config : Config) (directory : Path) : Path :=
  (request.root.map directory.join).getD config.root

/-- The paths that are read once the configuration is there. -/
def inputs (request : ValidateRequest) (disk : Disk) (config : Config) (directory : Path) :
    List Path :=
  (request.listFile config directory).toList ++ match request.path with
    | some path => [directory.join path]
    | none => searched disk (request.contentRoot config directory) config.extensions

/-- All paths that are read when the configuration is in this file. -/
def pathsRead (request : ValidateRequest) (disk : Disk) (file : Path) : List Path :=
  disk.directory.join file :: match loadConfig disk (some file) disk.directory with
    | .ok config => request.inputs disk config disk.directory
    | .error _ => []

end ValidateRequest

section Request

variable {request : ValidateRequest} {disk disk' : Disk} {config : Config} {file : Path}

lemma map_join_of_isAbsolute {path : Option Path} (h : ∀ p ∈ path, p.isAbsolute = true)
    (directory : Path) : path.map directory.join = path := by
  cases path with
  | none => rfl
  | some path => exact congrArg some (join_of_isAbsolute directory (h path rfl))

lemma loadAllowList_congr {directory directory' : Path} (hrequest : request.IsAbsolute)
    (h : ∀ path ∈ request.listFile config directory, disk'.locate path = disk.locate path) :
    loadAllowList disk' config directory' request.allowList =
      loadAllowList disk config directory request.allowList := by
  unfold loadAllowList
  unfold ValidateRequest.listFile at h
  cases hlist : request.allowList with
  | some path =>
    have habsolute := hrequest.allowList path hlist
    rw [hlist] at h
    have hlocate := h (directory.join path) rfl
    rw [join_of_isAbsolute directory habsolute] at hlocate
    dsimp only
    rw [join_of_isAbsolute directory habsolute, join_of_isAbsolute directory' habsolute,
      AllowList.load_congr hlocate]
  | none =>
    rw [hlist] at h
    unfold Config.loadAllowList
    cases hconfigured : config.allowList with
    | none => rfl
    | some path =>
      rw [hconfigured] at h
      dsimp only
      rw [AllowList.load_congr (h (config.resolve path) rfl)]

lemma contentRoot_of_isAbsolute (hrequest : request.IsAbsolute) (config : Config)
    (directory : Path) : request.contentRoot config directory = request.root.getD config.root := by
  rw [ValidateRequest.contentRoot, map_join_of_isAbsolute hrequest.root]

lemma report_congr {directory directory' : Path} (hrequest : request.IsAbsolute)
    (h : ∀ path ∈ request.inputs disk config directory, disk'.locate path = disk.locate path)
    (compiler : Compiler) : request.report disk' config directory' compiler =
      request.report disk config directory compiler := by
  have hlist : loadAllowList disk' config directory' request.allowList =
      loadAllowList disk config directory request.allowList :=
    loadAllowList_congr hrequest fun path hpath =>
      h path (List.mem_append_left _ (Option.mem_toList.mpr hpath))
  have hwalker (allowed : AllowList) : request.walker config directory' compiler allowed =
      request.walker config directory compiler allowed := by
    rw [ValidateRequest.walker, ValidateRequest.walker, map_join_of_isAbsolute hrequest.root,
      map_join_of_isAbsolute hrequest.root]
  unfold ValidateRequest.inputs at h
  unfold ValidateRequest.report
  rw [hlist]
  refine bind_congr fun allowed => ?_
  rw [hwalker]
  cases hpath : request.path with
  | some path =>
    have habsolute := hrequest.path path hpath
    rw [hpath] at h
    have hlocate := h (directory.join path) (List.mem_append_right _ (List.mem_singleton_self _))
    rw [join_of_isAbsolute directory habsolute] at hlocate
    dsimp only
    rw [join_of_isAbsolute directory habsolute, join_of_isAbsolute directory' habsolute,
      Walker.runSingle_congr hlocate]
  | none =>
    rw [hpath] at h
    dsimp only
    rw [Walker.run_congr fun path hpath => h path (List.mem_append_right _ hpath)]

lemma answer_congr {directory directory' : Path} (hrequest : request.IsAbsolute)
    (h : ∀ path ∈ request.inputs disk config directory, disk'.locate path = disk.locate path)
    (compiler : Compiler) (time : String) : request.answer disk' config directory' compiler time =
      request.answer disk config directory compiler time := by
  unfold ValidateRequest.answer
  rw [report_congr hrequest h]

lemma isAbsolute_of_mem_inputs {directory path : Path} (hrequest : request.IsAbsolute)
    (hbase : config.baseDirectory.isAbsolute = true)
    (h : path ∈ request.inputs disk config directory) : path.isAbsolute = true := by
  have hresolve (written : Path) : (config.resolve written).isAbsolute = true :=
    isAbsolute_join_of_isAbsolute hbase written
  have hroot : (request.contentRoot config directory).isAbsolute = true := by
    rw [contentRoot_of_isAbsolute hrequest]
    cases hgiven : request.root with
    | none => exact hresolve config.contentRoot
    | some root => exact hrequest.root root hgiven
  rw [ValidateRequest.inputs, List.mem_append, Option.mem_toList] at h
  rcases h with h | h
  · rw [ValidateRequest.listFile] at h
    split at h
    · rename_i given hgiven
      have habsolute := hrequest.allowList given hgiven
      rw [join_of_isAbsolute directory habsolute] at h
      exact Option.some.inj h ▸ habsolute
    · obtain ⟨written, -, rfl⟩ := Option.map_eq_some_iff.mp h
      exact hresolve written
  · split at h
    · rename_i given hgiven
      have habsolute := hrequest.path given hgiven
      rw [join_of_isAbsolute directory habsolute] at h
      exact List.mem_singleton.mp h ▸ habsolute
    · exact isAbsolute_of_mem_searched hroot h

lemma baseDirectory_of_loadConfig {directory : Path} (hfile : file.isAbsolute = true)
    (h : loadConfig disk (some file) directory = .ok config) :
    config.baseDirectory = Config.directoryOf file ∧ config.baseDirectory.isAbsolute = true := by
  obtain ⟨text, written, hread, -, rfl⟩ := exists_written_of_loadConfig h
  rw [join_of_isAbsolute directory hfile] at hread ⊢
  exact ⟨rfl, (Config.directoryOf_of_readText hfile hread).1⟩

lemma isAbsolute_of_mem_pathsRead (hfile : file.isAbsolute = true) (hrequest : request.IsAbsolute)
    {path : Path} (h : path ∈ request.pathsRead disk file) : path.isAbsolute = true := by
  rw [ValidateRequest.pathsRead, join_of_isAbsolute _ hfile] at h
  rcases List.mem_cons.mp h with rfl | h
  · exact hfile
  · cases hload : loadConfig disk (some file) disk.directory with
    | error fault =>
      rw [hload] at h
      cases h
    | ok config =>
      rw [hload] at h
      exact isAbsolute_of_mem_inputs hrequest (baseDirectory_of_loadConfig hfile hload).2 h

/-- The answer depends on what is found at the paths that are read and on the compiler that is
chosen, and on nothing else. -/
theorem answerBy_congr {choose choose' : Config → Except RequestFault Compiler}
    (hfile : file.isAbsolute = true) (hrequest : request.IsAbsolute) {verbosity : Nat}
    (time : String)
    (hpaths : ∀ path ∈ request.pathsRead disk file, disk'.locate path = disk.locate path)
    (hchoose : ∀ config, loadConfig disk (some file) disk.directory = .ok config →
      choose' config = choose config) :
    Invocation.answerBy choose' ⟨some file, verbosity, .validate request⟩ disk' time =
      Invocation.answerBy choose ⟨some file, verbosity, .validate request⟩ disk time := by
  have hlocate : disk'.locate file = disk.locate file := by
    have hfirst := hpaths (disk.directory.join file) (List.mem_cons_self ..)
    rwa [join_of_isAbsolute _ hfile] at hfirst
  have hconfig : loadConfig disk' (some file) disk'.directory =
      loadConfig disk (some file) disk.directory := loadConfig_congr hfile hlocate
  unfold Invocation.answerBy
  rw [hconfig]
  cases hload : loadConfig disk (some file) disk.directory with
  | error fault => simp only [bind, Except.bind]
  | ok config =>
    have hinputs : ∀ path ∈ request.inputs disk config disk.directory,
        disk'.locate path = disk.locate path := by
      intro path hpath
      refine hpaths path (List.mem_cons_of_mem _ ?_)
      rw [hload]
      exact hpath
    show (choose' config >>= _) = (choose config >>= _)
    rw [hchoose config hload]
    exact bind_congr fun compiler => answer_congr hrequest hinputs compiler time

end Request

/-- A configuration that is not in the working directory, with a relative content root. -/
def awayDisk (directory : Path) : Disk where
  root := .directory
    [(.ofText "away", .directory [(.ofText "pzl.yaml", .ofText "content_root: docs\n"),
      (.ofText "docs", .directory [(.ofText "a.mdx", .ofText "text")])]),
      (.ofText "docs", .directory [])]
  directory := directory

end Cli

end PuzzleGate
