import PuzzleGate.Proofs.Gate
import PuzzleGate.Proofs.Stages

/-!
# Limits beyond the permits

A configuration is accepted with every limit of at least one, and that many permits are asked for.
There are only so many of them. A run with a greater limit breaks down as soon as its documents are
found, and nothing else makes an invocation break down.
-/

namespace PuzzleGate

open Files Corpus

lemma Config.check_eq_ok_iff {config : Config} : config.check = .ok () ↔
    config.command ≠ [] ∧ config.extensions ≠ [] ∧ 1 ≤ config.concurrency := by
  simp only [Config.check, List.isEmpty_iff]
  split_ifs with hcommand hextensions hlimit
  · simp [hcommand]
  · simp [hextensions]
  · simp [hlimit]
  · exact ⟨fun _ => ⟨hcommand, hextensions, Nat.one_le_iff_ne_zero.mpr hlimit⟩, fun _ => rfl⟩

lemma maxPermits_lt_permits_iff {limit : Nat} :
    maxPermits < permits limit ↔ maxPermits < limit := by
  simp only [permits, maxPermits]
  omega

lemma Corpus.Walker.run_eq_tooManyPermits_iff {walker : Walker} {disk : Disk} :
    (∃ limit, walker.run disk = .error (.tooManyPermits limit)) ↔
      maxPermits < walker.limit ∧
        ∃ paths, discover disk walker.root walker.extensions = .ok paths := by
  rw [← maxPermits_lt_permits_iff, Walker.run]
  cases discover disk walker.root walker.extensions with
  | error fault => simp [bind, Except.bind, Except.mapError]
  | ok paths =>
    simp only [bind, Except.bind, Except.mapError]
    split_ifs with hlimit
    · simp [hlimit]
    · simp [hlimit, pure, Except.pure]

namespace Cli

/-- There is no result because a run broke down. -/
def BreaksDown {α : Type} (result : Except RequestFault α) : Prop :=
  ∃ root limit, result = .error (.noRun root (.tooManyPermits limit))

lemma breaksDown_error_iff {α : Type} {fault : RequestFault} :
    BreaksDown (.error fault : Except RequestFault α) ↔ fault.exitCode = 101 := by
  unfold BreaksDown RequestFault.exitCode
  split
  · simp
  · rename_i hother
    refine ⟨?_, fun h => absurd h (by decide)⟩
    rintro ⟨root, limit, hfault⟩
    exact (hother root limit (Except.error.inj hfault)).elim

lemma not_breaksDown_ok {α : Type} (a : α) : ¬ BreaksDown (.ok a) := by
  rintro ⟨root, limit, h⟩
  cases h

/-- The first stage that breaks down is the only one that does. -/
lemma breaksDown_bind_iff {α β : Type} {x : Except RequestFault α} {f : α → Except RequestFault β} :
    BreaksDown (x >>= f) ↔ BreaksDown x ∨ ∃ a, x = .ok a ∧ BreaksDown (f a) := by
  cases x with
  | error fault => simp [breaksDown_error_iff, bind, Except.bind]
  | ok a => simp [not_breaksDown_ok, bind, Except.bind]

lemma not_breaksDown_of_exitCode {α : Type} {x : Except RequestFault α}
    (h : ∀ fault, x = .error fault → fault.exitCode = 1) : ¬ BreaksDown x := by
  cases x with
  | error fault => simp [breaksDown_error_iff, h fault rfl]
  | ok a => exact not_breaksDown_ok a

lemma not_breaksDown_mapError {ε α : Type} {x : Except ε α} {f : ε → RequestFault}
    (h : ∀ reason, (f reason).exitCode = 1) : ¬ BreaksDown (x.mapError f) := by
  refine not_breaksDown_of_exitCode fun fault hfault => ?_
  obtain ⟨reason, -, rfl⟩ := mapError_eq_error.mp hfault
  exact h reason

variable {disk : Disk} {config : Config} {directory : Path} {compiler : Compiler} {time : String}

lemma ElementsRequest.not_breaksDown_source (request : ElementsRequest) :
    ¬ BreaksDown (request.source disk directory compiler) := by
  simp only [ElementsRequest.source, breaksDown_bind_iff]
  rintro (hread | ⟨text, -, htext⟩)
  · exact not_breaksDown_mapError (fun _ => rfl) hread
  · split_ifs at htext
    · exact not_breaksDown_ok _ htext
    · rcases breaksDown_bind_iff.mp htext with hcompile | ⟨compiled, -, hsource⟩
      · exact not_breaksDown_mapError (fun _ => rfl) hcompile
      · exact not_breaksDown_ok _ hsource

lemma ElementsRequest.not_breaksDown (request : ElementsRequest) :
    ¬ BreaksDown (request.answer disk directory compiler) := by
  rw [ElementsRequest.answer, breaksDown_bind_iff]
  rintro (hsource | ⟨source, -, hanswer⟩)
  · exact request.not_breaksDown_source hsource
  · dsimp only at hanswer
    split at hanswer <;> exact not_breaksDown_ok _ hanswer

lemma AllowListRequest.not_breaksDown (request : AllowListRequest) :
    ¬ BreaksDown (request.answer disk config directory) := by
  rw [AllowListRequest.answer, breaksDown_bind_iff]
  rintro (hload | ⟨list, -, hanswer⟩)
  · exact not_breaksDown_of_exitCode (fun fault => exitCode_of_loadAllowList) hload
  · split at hanswer <;> exact not_breaksDown_ok _ hanswer

lemma breaksDown_run_iff {walker : Walker} :
    BreaksDown ((walker.run disk).mapError (.noRun walker.root)) ↔
      ∃ limit, walker.run disk = .error (.tooManyPermits limit) := by
  cases walker.run disk with
  | error fault => simp [BreaksDown, Except.mapError]
  | ok report => simp [BreaksDown, Except.mapError]

lemma ValidateRequest.breaksDown_report_iff (request : ValidateRequest) :
    BreaksDown (request.report disk config directory compiler) ↔
      request.path = none ∧ maxPermits < config.concurrency ∧
      ∃ allowed paths, loadAllowList disk config directory request.allowList = .ok allowed ∧
        discover disk ((request.root.map directory.join).getD config.root) config.extensions =
          .ok paths := by
  rw [ValidateRequest.report, breaksDown_bind_iff]
  cases hload : loadAllowList disk config directory request.allowList with
  | error fault =>
    have hcode : fault.exitCode = 1 := exitCode_of_loadAllowList hload
    simp [breaksDown_error_iff, hcode]
  | ok allowed =>
    cases hpath : request.path with
    | some path => simp [not_breaksDown_ok, pure, Except.pure]
    | none =>
      simp only [not_breaksDown_ok, Except.ok.injEq, breaksDown_run_iff,
        Walker.run_eq_tooManyPermits_iff]
      simp [ValidateRequest.walker]

lemma ValidateRequest.breaksDown_iff (request : ValidateRequest) :
    BreaksDown (request.answer disk config directory compiler time) ↔
      BreaksDown (request.report disk config directory compiler) := by
  rw [ValidateRequest.answer, breaksDown_bind_iff]
  simp [not_breaksDown_ok, pure, Except.pure]

lemma Request.breaksDown_iff (request : Request) :
    BreaksDown (request.answer disk config directory compiler time) ↔
      ∃ validation, request = .validate validation ∧
        BreaksDown (validation.report disk config directory compiler) := by
  cases request with
  | validate validation => simp [Request.answer, ValidateRequest.breaksDown_iff]
  | elements request => simp [Request.answer, ElementsRequest.not_breaksDown]
  | allowList request => simp [Request.answer, AllowListRequest.not_breaksDown]

lemma Request.exitCode_le_one {request : Request} {answer : Answer}
    (h : request.answer disk config directory compiler time = .ok answer) :
    answer.exitCode ≤ 1 := by
  cases request with
  | validate request =>
    obtain ⟨report, -, hanswer⟩ := bind_eq_ok.mp h
    obtain rfl := pure_eq_ok.mp hanswer
    dsimp only
    rw [CorpusReport.exitCode]
    split_ifs <;> decide
  | elements request =>
    obtain ⟨source, -, hanswer⟩ := bind_eq_ok.mp h
    dsimp only at hanswer
    split at hanswer <;> obtain rfl := pure_eq_ok.mp hanswer <;> exact Nat.zero_le 1
  | allowList request =>
    obtain ⟨list, -, hanswer⟩ := bind_eq_ok.mp h
    split at hanswer <;> obtain rfl := pure_eq_ok.mp hanswer
    · exact Nat.zero_le 1
    · dsimp only
      split_ifs <;> decide

lemma Invocation.exitCode_eq_iff_breaksDown (invocation : Invocation) (given : Option Compiler) :
    invocation.exitCode disk given time = 101 ↔
      BreaksDown (invocation.answer disk given time) := by
  rw [Invocation.exitCode]
  cases hanswer : invocation.answer disk given time with
  | error fault => rw [breaksDown_error_iff, Ending.ofAnswer]
  | ok answer =>
    obtain ⟨config, -, hchosen⟩ := bind_eq_ok.mp hanswer
    obtain ⟨compiler, -, hrequest⟩ := bind_eq_ok.mp hchosen
    have hcode := Request.exitCode_le_one hrequest
    rw [Ending.ofAnswer, iff_false_right (not_breaksDown_ok answer)]
    dsimp only
    omega

/-- An invocation breaks down exactly when it is to validate a corpus whose documents are found,
with a configuration whose limit is beyond the permits. -/
theorem Invocation.exitCode_eq_breakdown_iff (invocation : Invocation) (disk : Disk)
    (given : Option Compiler) (time : String) :
    invocation.exitCode disk given time = 101 ↔ ∃ request config allowed paths,
      invocation.request = .validate request ∧ request.path = none ∧
      loadConfig disk invocation.config disk.directory = .ok config ∧
      maxPermits < config.concurrency ∧
      loadAllowList disk config disk.directory request.allowList = .ok allowed ∧
      discover disk ((request.root.map disk.directory.join).getD config.root) config.extensions =
        .ok paths := by
  rw [exitCode_eq_iff_breaksDown, Invocation.answer, breaksDown_bind_iff]
  cases hconfig : loadConfig disk invocation.config disk.directory with
  | error fault =>
    have hcode : fault.exitCode = 1 := exitCode_of_loadConfig hconfig
    simp [breaksDown_error_iff, hcode]
  | ok config =>
    obtain ⟨compiler, hcompiler⟩ := exists_chosenCompiler hconfig given
    simp only [not_breaksDown_ok, Except.ok.injEq, exists_eq_left', false_or]
    rw [breaksDown_bind_iff, hcompiler]
    simp [not_breaksDown_ok, Request.breaksDown_iff, ValidateRequest.breaksDown_report_iff]

/-- A configuration that is accepted asks for as many permits as its limit, which is at least one.
Every such limit is accepted, and a run with it breaks down exactly when its documents are found
but the limit is beyond the permits. So does an invocation, and for no other reason. -/
theorem accepted_limits (disk : Disk) (invocation : Invocation) (given : Option Compiler)
    (time : String) :
    (∀ config : Config, config.check = .ok () →
      (∀ limit, 1 ≤ limit → { config with concurrency := limit }.check = .ok ()) ∧
      ∀ (request : ValidateRequest) (directory : Path) (compiler : Compiler) (allowed : AllowList),
        let walker := request.walker config directory compiler allowed
        1 ≤ permits walker.limit ∧ permits walker.limit = config.concurrency ∧
        ((∃ limit, walker.run disk = .error (.tooManyPermits limit)) ↔
          maxPermits < permits walker.limit ∧
            ∃ paths, discover disk walker.root walker.extensions = .ok paths)) ∧
    (invocation.exitCode disk given time = 101 ↔ ∃ request config allowed paths,
      invocation.request = .validate request ∧ request.path = none ∧
      loadConfig disk invocation.config disk.directory = .ok config ∧
      maxPermits < config.concurrency ∧
      loadAllowList disk config disk.directory request.allowList = .ok allowed ∧
      discover disk ((request.root.map disk.directory.join).getD config.root) config.extensions =
        .ok paths) := by
  refine ⟨fun config hcheck => ?_, invocation.exitCode_eq_breakdown_iff disk given time⟩
  obtain ⟨hcommand, hextensions, hlimit⟩ := Config.check_eq_ok_iff.mp hcheck
  refine ⟨fun limit h => Config.check_eq_ok_iff.mpr ⟨hcommand, hextensions, h⟩,
    fun request directory compiler allowed => ⟨Nat.le_max_right _ _, ?_, ?_⟩⟩
  · exact Nat.max_eq_left hlimit
  · rw [Walker.run_eq_tooManyPermits_iff, maxPermits_lt_permits_iff]

/-- The standard limit is within the permits. -/
theorem accepted_limits_standard :
    let walker :=
      ValidateRequest.walker {} Config.standard (.ofText "/") smallCompiler AllowList.builtIn
    Config.standard.check = .ok () ∧ permits walker.limit = 8 ∧
      ¬ ∃ limit, walker.run smallDisk = .error (.tooManyPermits limit) := by
  intro walker
  have hcheck : Config.standard.check = .ok () := rfl
  obtain ⟨-, hlimit, hbreakdown⟩ :=
    ((accepted_limits smallDisk ⟨none, 0, .validate {}⟩ none "").1 Config.standard hcheck).2 {}
      (.ofText "/") smallCompiler AllowList.builtIn
  refine ⟨hcheck, hlimit, fun h => ?_⟩
  have hbeyond := (hbreakdown.mp h).1
  rw [hlimit] at hbeyond
  exact absurd hbeyond (by decide)

/-- A tree without documents whose configuration asks for one permit too many. -/
def greedyDisk : Disk :=
  ⟨.directory [(.ofText "puzzles", .directory []),
    (.ofText "pzl.yaml", .ofText "concurrency: 2305843009213693952\n")], .ofText "/"⟩

/-- The configuration is accepted, but the run breaks down. -/
theorem accepted_limits_greedy :
    let config : Config :=
      { Config.standard with concurrency := 2305843009213693952, baseDirectory := .ofText "/" }
    loadConfig greedyDisk none greedyDisk.directory = .ok config ∧ config.check = .ok () ∧
      maxPermits < permits config.concurrency ∧
      Invocation.exitCode ⟨none, 0, .validate {}⟩ greedyDisk none "" = 101 := by
  intro config
  have hload : loadConfig greedyDisk none greedyDisk.directory = .ok config := rfl
  have hroot : config.root = .ofText "/puzzles" := by decide
  have hdocuments : documentsIn config.extensions (.ofText "/puzzles") (.directory []) = [] := rfl
  have hfound : discover greedyDisk config.root config.extensions = .ok [] := by
    rw [hroot]
    refine discover_eq_ok_iff.mpr ⟨[], rfl, rfl, ?_⟩
    rw [hdocuments, List.mergeSort_nil]
  refine ⟨hload, rfl, by decide, ?_⟩
  exact (Invocation.exitCode_eq_breakdown_iff _ _ _ _).mpr
    ⟨{}, config, AllowList.builtIn, [], rfl, rfl, hload, by decide, rfl, hfound⟩

end Cli

end PuzzleGate
