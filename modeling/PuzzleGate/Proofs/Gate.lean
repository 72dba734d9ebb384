import PuzzleGate.Cli.Program
import PuzzleGate.Proofs.Corpus.Run
import PuzzleGate.Proofs.Files.Tree
import PuzzleGate.Proofs.Stages
import PuzzleGate.Proofs.Validator

/-!
# The exit code of a validation

The program ends with zero on a corpus exactly when every document below the root can be read and
compiled and is acceptable. Every stage that fails, and every document that does, ends it with one.
-/

namespace PuzzleGate

open Files Call Corpus

/-- The document is UTF-8 and compiles, its frontmatter fits the record, its raw text has no call,
and every call in its compiled text renders an allowed element. -/
def Acceptable (disk : Disk) (compiler : Compiler) (allowed : AllowList) (path : Path) : Prop :=
  ∃ raw compiled, disk.readBytes path = .ok (Text.Utf8.encode raw) ∧
    compiler raw = .ok compiled ∧
    (∃ value author items, compiled.frontmatter = some value ∧ FitsRecord value author items) ∧
    (∀ start stop, ¬ CallAt raw start stop) ∧
    ∀ m ∈ scan compiled.source, m.name ∈ allowed.names

/-- The root is a directory that can be listed with all that is below it, and every document below
it is acceptable. -/
def AllAcceptable (disk : Disk) (root : Path) (extensions : List String) (compiler : Compiler)
    (allowed : AllowList) : Prop :=
  ∃ entries paths, disk.locate root = .ok (.directory entries) ∧
    unlistedIn root (.directory entries) = none ∧ discover disk root extensions = .ok paths ∧
    ∀ path ∈ paths, Acceptable disk compiler allowed path

lemma validatePath_passed {walker : Walker} {disk : Disk} {path : Path} :
    (∃ report, walker.validatePath disk path = .ok report ∧ report.passed = true) ↔
      Acceptable disk walker.compiler walker.allowed path := by
  simp only [Walker.validatePath_eq_ok_iff, Disk.readText_eq_ok_iff, Acceptable]
  constructor
  · rintro ⟨report, ⟨raw, compiled, hread, hcompile, rfl⟩, hpassed⟩
    exact ⟨raw, compiled, hread, hcompile, validate_passed.mp hpassed⟩
  · rintro ⟨raw, compiled, hread, hcompile, hchecks⟩
    exact ⟨_, ⟨raw, compiled, hread, hcompile, rfl⟩, validate_passed.mpr hchecks⟩

lemma passed_of_discover {walker : Walker} {disk : Disk} {paths : List Path}
    (hpaths : discover disk walker.root walker.extensions = .ok paths) :
    (walker.collect (paths.map (walker.result disk))).passed = true ↔
      AllAcceptable disk walker.root walker.extensions walker.compiler walker.allowed := by
  rw [Walker.passed_collect, List.forall_mem_map]
  simp only [Walker.result, validatePath_passed]
  constructor
  · intro h
    obtain ⟨entries, hlocate, hlisted, -⟩ := discover_eq_ok_iff.mp hpaths
    exact ⟨entries, paths, hlocate, hlisted, hpaths, h⟩
  · rintro ⟨-, paths', -, -, hpaths', h⟩
    rw [hpaths] at hpaths'
    obtain rfl := Except.ok.inj hpaths'
    exact h

lemma not_allAcceptable_of_discover {disk : Disk} {root : Path} {extensions : List String}
    {compiler : Compiler} {allowed : AllowList} {fault : DiscoveryFault}
    (h : discover disk root extensions = .error fault) :
    ¬ AllAcceptable disk root extensions compiler allowed := by
  rintro ⟨-, paths, -, -, hpaths, -⟩
  rw [h] at hpaths
  cases hpaths

namespace Cli

lemma exitCode_of_loadAllowList {disk : Disk} {config : Config} {directory : Path}
    {path : Option Path} {fault : RequestFault}
    (h : loadAllowList disk config directory path = .error fault) : fault.exitCode = 1 := by
  unfold loadAllowList at h
  split at h
  · obtain ⟨reason, -, rfl⟩ := mapError_eq_error.mp h
    rfl
  · obtain ⟨reason, -, rfl⟩ := mapError_eq_error.mp h
    rfl

/-- A configuration is loaded only when it is usable. -/
theorem loadConfig_cases (disk : Disk) (path : Option Path) (directory : Path) :
    (∃ reason, loadConfig disk path directory = .error (.badConfig reason)) ∨
      ∃ config, loadConfig disk path directory = .ok config ∧ config.check = .ok () := by
  unfold loadConfig
  cases Config.discover disk (path.map directory.join) directory with
  | error reason => exact .inl ⟨reason, rfl⟩
  | ok config =>
    cases hcheck : config.check with
    | error reason =>
      refine .inl ⟨.unusable reason, ?_⟩
      simp [bind, Except.bind, Except.mapError, hcheck]
    | ok checked =>
      refine .inr ⟨config, ?_, hcheck⟩
      simp [bind, Except.bind, Except.mapError, hcheck, pure, Except.pure]

lemma exitCode_of_loadConfig {disk : Disk} {path : Option Path} {directory : Path}
    {fault : RequestFault} (h : loadConfig disk path directory = .error fault) :
    fault.exitCode = 1 := by
  rcases loadConfig_cases disk path directory with ⟨reason, hload⟩ | ⟨config, hload, -⟩
  · rw [h] at hload
    obtain rfl := Except.error.inj hload
    rfl
  · rw [h] at hload
    cases hload

lemma command_ne_nil {disk : Disk} {path : Option Path} {directory : Path} {config : Config}
    (h : loadConfig disk path directory = .ok config) : config.command ≠ [] := by
  rcases loadConfig_cases disk path directory with ⟨reason, hload⟩ | ⟨loaded, hload, hcheck⟩
  · rw [h] at hload
    cases hload
  · rw [h] at hload
    obtain rfl := Except.ok.inj hload
    intro hnil
    rw [Config.check, hnil] at hcheck
    cases hcheck

lemma exists_chosenCompiler {disk : Disk} {path : Option Path} {directory : Path} {config : Config}
    (h : loadConfig disk path directory = .ok config) (given : Option Compiler) :
    ∃ compiler, chosenCompiler disk config given = .ok compiler := by
  cases given with
  | some compiler => exact ⟨compiler, rfl⟩
  | none =>
    have hcommand : config.command ≠ [] := command_ne_nil h
    obtain ⟨program, arguments, hcons⟩ := List.exists_cons_of_ne_nil hcommand
    unfold chosenCompiler configuredCompiler Config.program
    rw [hcons]
    exact ⟨_, rfl⟩

lemma exitCode_answer {request : ValidateRequest} {config : Config} (hpath : request.path = none)
    (hlimit : permits config.concurrency ≤ maxPermits) (disk : Disk) (directory : Path)
    (compiler : Compiler) (time : String) :
    (Ending.ofAnswer (request.answer disk config directory compiler time)).exitCode =
      match loadAllowList disk config directory request.allowList with
      | .error _ => 1
      | .ok allowed =>
        let walker := request.walker config directory compiler allowed
        match discover disk walker.root walker.extensions with
        | .error _ => 1
        | .ok paths => (walker.collect (paths.map (walker.result disk))).exitCode := by
  unfold ValidateRequest.answer ValidateRequest.report
  cases hload : loadAllowList disk config directory request.allowList with
  | error fault => exact exitCode_of_loadAllowList hload
  | ok allowed =>
    have hwalker : permits (request.walker config directory compiler allowed).limit ≤ maxPermits :=
      hlimit
    simp only [hpath, bind, Except.bind, Walker.run_eq hwalker]
    cases discover disk (request.walker config directory compiler allowed).root
      (request.walker config directory compiler allowed).extensions with
    | error fault => rfl
    | ok paths => rfl

/-- The exit code with which an invocation ends. -/
def Invocation.exitCode (invocation : Invocation) (disk : Disk) (given : Option Compiler)
    (time : String) : Nat :=
  (Ending.ofAnswer (invocation.answer disk given time)).exitCode

/-- Validating a whole corpus ends with zero exactly when the configuration and the allow-list load
and everything below the root is acceptable, and with one otherwise. -/
theorem validate_exitCode (disk : Disk) (invocation : Invocation) (request : ValidateRequest)
    (given : Option Compiler) (time : String) (hrequest : invocation.request = .validate request)
    (hpath : request.path = none) :
    (∀ fault, loadConfig disk invocation.config disk.directory = .error fault →
      invocation.exitCode disk given time = 1) ∧
    ∀ config, loadConfig disk invocation.config disk.directory = .ok config →
      config.concurrency ≤ maxPermits →
      ∃ compiler, chosenCompiler disk config given = .ok compiler ∧
        (invocation.exitCode disk given time = 0 ↔
          ∃ allowed, loadAllowList disk config disk.directory request.allowList = .ok allowed ∧
            AllAcceptable disk ((request.root.map disk.directory.join).getD config.root)
              config.extensions compiler allowed) ∧
        (invocation.exitCode disk given time ≠ 0 → invocation.exitCode disk given time = 1) := by
  refine ⟨fun fault hfault => ?_, fun config hconfig hlimit => ?_⟩
  · have hanswer : invocation.answer disk given time = .error fault := by
      simp only [Invocation.answer, hfault, bind, Except.bind]
    rw [Invocation.exitCode, hanswer]
    exact exitCode_of_loadConfig hfault
  · obtain ⟨compiler, hcompiler⟩ := exists_chosenCompiler hconfig given
    refine ⟨compiler, hcompiler, ?_⟩
    have hanswer : invocation.answer disk given time =
        request.answer disk config disk.directory compiler time := by
      simp only [Invocation.answer, hconfig, hcompiler, hrequest, bind, Except.bind,
        Request.answer]
    have hpermits : permits config.concurrency ≤ maxPermits :=
      Nat.max_le.mpr ⟨hlimit, by decide⟩
    rw [Invocation.exitCode, hanswer, exitCode_answer hpath hpermits]
    cases hload : loadAllowList disk config disk.directory request.allowList with
    | error fault => simp
    | ok allowed =>
      let walker := request.walker config disk.directory compiler allowed
      have hroot : (request.root.map disk.directory.join).getD config.root = walker.root := rfl
      have hextensions : config.extensions = walker.extensions := rfl
      simp only [Except.ok.injEq, exists_eq_left', hroot, hextensions]
      cases hdiscover : discover disk walker.root walker.extensions with
      | error fault =>
        have hnot : ¬ AllAcceptable disk walker.root walker.extensions compiler allowed :=
          not_allAcceptable_of_discover hdiscover
        simp [hnot]
      | ok paths =>
        have hpassed := passed_of_discover hdiscover
        rw [← CorpusReport.exitCode_eq_zero] at hpassed
        exact ⟨hpassed, CorpusReport.exitCode_eq_one⟩

/-- The address in the small corpus. -/
def smallAuthor : String := "0x0123456789abcdefABCDEF0123456789abcdef01"

/-- The only document of the small corpus. -/
def smallFile : Node := .ofText "# A"

/-- A corpus of one document in a tree without a configuration file. -/
def smallDisk : Disk :=
  ⟨.directory [(.ofText "puzzles", .directory [(.ofText "a.mdx", smallFile)])], .ofText "/"⟩

/-- A compiler that renders a paragraph, whatever the text is. -/
def smallCompiler : Compiler := fun _ =>
  .ok ⟨some (.object [("author", .string smallAuthor),
    ("contributors", .array [.string smallAuthor])]), "_jsx(_components.p)"⟩

lemma acceptable_small :
    Acceptable smallDisk smallCompiler AllowList.builtIn (.ofText "/puzzles/a.mdx") := by
  refine ⟨"# A", _, rfl, rfl, ⟨_, smallAuthor, [.string smallAuthor], rfl, ?_⟩, ?_, ?_⟩
  · have haddress : IsAddress smallAuthor := isAddress_iff.mp (by decide)
    refine ⟨rfl, haddress, rfl, by simp, ?_, by simp, ?_⟩
    · intro item hitem
      exact ⟨smallAuthor, List.mem_singleton.mp hitem, haddress⟩
    · intro value hvalue
      cases hvalue
  · exact scan_eq_nil_iff.mp (by decide)
  · have hscan : scan "_jsx(_components.p)" =
        [⟨0, .single, .member, "_jsx(_components.p"⟩] := by decide
    intro m hm
    rw [hscan] at hm
    obtain rfl := List.mem_singleton.mp hm
    exact AllowList.mem_ofNames.mpr ⟨by decide, "p", by decide, by decide⟩

/-- The small corpus is validated with exit code zero. -/
theorem validate_exitCode_small :
    Invocation.exitCode ⟨none, 0, .validate {}⟩ smallDisk (some smallCompiler) "" = 0 := by
  have hconfig : loadConfig smallDisk none smallDisk.directory =
      .ok { Config.standard with baseDirectory := .ofText "/" } := rfl
  obtain ⟨compiler, hcompiler, hzero, -⟩ :=
    (validate_exitCode smallDisk ⟨none, 0, .validate {}⟩ {} (some smallCompiler) "" rfl rfl).2 _
      hconfig (by decide)
  obtain rfl := Except.ok.inj hcompiler
  refine hzero.mpr ⟨AllowList.builtIn, rfl, [(.ofText "a.mdx", smallFile)],
    [.ofText "/puzzles/a.mdx"], rfl, rfl, ?_, ?_⟩
  · refine discover_eq_ok_iff.mpr ⟨_, rfl, rfl, ?_⟩
    let puzzles : Node := .directory [(.ofText "a.mdx", smallFile)]
    have hdocuments : documentsIn ["mdx"] (.ofText "/puzzles") puzzles =
        [.ofText "/puzzles/a.mdx"] := rfl
    change _ = (documentsIn ["mdx"] (.ofText "/puzzles") puzzles).mergeSort _
    rw [hdocuments, List.mergeSort_singleton]
  · intro path hpath
    obtain rfl := List.mem_singleton.mp hpath
    exact acceptable_small

end Cli

end PuzzleGate
