import PuzzleGate.Proofs.Call.Counts
import PuzzleGate.Proofs.Gate
import PuzzleGate.Proofs.Outcome
import PuzzleGate.Proofs.Report.Json

/-!
# The requests agree

The elements of a document can be listed, they can be held against an allow-list by their names,
and the document can be validated as a whole. These are different requests, but what one of them
says about the elements of a document is what the others say.
-/

namespace PuzzleGate.Cli

open Files Call Corpus Json

variable {disk : Disk} {config : Config} {directory file : Path} {compiler : Compiler}
  {allowed : AllowList} {raw : String} {compiled : Compiled}

/-- A line of a table: a name in a column of 32 characters, and what is said of it. -/
def tableLine (name said : String) : String :=
  name ++ .ofList (List.replicate (32 - name.length) ' ') ++ " " ++ said ++ "\n"

/-- How many calls of the source are read as the name. -/
def timesCalled (source name : String) : Nat :=
  (matchAll source).countP fun m => Call.normalize m.text = name

/-- The text is that of the value over several lines, and it is read as this value. -/
def IsJsonOf (value : Value) (text : String) : Prop :=
  text = value.pretty ++ "\n" ∧ parse? text = some value

lemma isJsonOf_jsonText {value : Value} (hfits : value.Fits maxDepth)
    (hsorted : value.sorted = value) : IsJsonOf value (jsonText value) :=
  ⟨rfl, (parse?_pretty hfits).trans (congrArg some hsorted)⟩

lemma ElementsRequest.source_eq (hread : disk.readText (directory.join file) = .ok raw)
    (hcompile : compiler raw = .ok compiled) (format : Format) :
    ElementsRequest.source ⟨file, false, format⟩ disk directory compiler = .ok compiled.source := by
  simp [ElementsRequest.source, hread, hcompile, bind, Except.bind, Except.mapError, pure,
    Except.pure]

lemma elementCounts_eq (source : String) : elementCounts source =
    (elements source).map fun name => ⟨name, timesCalled source name⟩ := by
  have hnames : elements source = distinct ((scan source).map Match.name) := map_name_countNames _
  rw [hnames, elementCounts, countNames_eq]
  refine List.map_congr_left fun name _ => ?_
  rw [List.count_eq_countP, List.countP_map, timesCalled, matchAll_eq_scan]
  exact congrArg (ElementCount.mk name) (List.countP_congr fun m _ => by simp [Match.name])

lemma line_eq_tableLine (name said : String) :
    s!"{padName name} {said}" ++ "\n" = tableLine name said := by
  change padName name ++ " " ++ said ++ "\n" = tableLine name said
  simp only [tableLine, padName, nameWidth, String.append_assoc]

lemma linesText_countLines (counts : List ElementCount) : linesText (countLines counts) =
    .join (counts.map fun entry => tableLine entry.name (toString entry.occurrences)) ++ "\n" ++
      "Distinct elements: " ++ toString counts.length ++ "\n" := by
  have hlast : String.join (["", s!"Distinct elements: {counts.length}"].map (· ++ "\n")) =
      "\n" ++ "Distinct elements: " ++ toString counts.length ++ "\n" := rfl
  have hlines : (counts.map fun entry => s!"{padName entry.name} {entry.occurrences}").map
      (· ++ "\n") = counts.map fun entry => tableLine entry.name (toString entry.occurrences) := by
    rw [List.map_map]
    exact List.map_congr_left fun entry _ =>
      line_eq_tableLine entry.name (toString entry.occurrences)
  rw [linesText, countLines, List.map_append, String.join_append, hlast, hlines]
  simp only [String.append_assoc]

lemma linesText_verdicts (names : List String) (allowed : AllowList) :
    linesText (names.map fun name => s!"{padName name} {verdict allowed name}") =
      .join (names.map fun name =>
        tableLine name (if name ∈ allowed.disallowed names then "DISALLOWED" else "allowed")) := by
  rw [linesText, List.map_map]
  refine congrArg String.join (List.map_congr_left fun name hname => ?_)
  have hverdict : verdict allowed name =
      if name ∈ allowed.disallowed names then "DISALLOWED" else "allowed" := by
    rw [verdict]
    cases hcontains : allowed.contains name <;> simp [AllowList.disallowed, hname, hcontains]
  rw [Function.comp_apply, hverdict]
  exact line_eq_tableLine name _

lemma ElementsRequest.answer_text (hread : disk.readText (directory.join file) = .ok raw)
    (hcompile : compiler raw = .ok compiled) :
    ElementsRequest.answer ⟨file, false, .text⟩ disk directory compiler =
      .ok ⟨.join ((elements compiled.source).map fun name =>
          tableLine name (toString (timesCalled compiled.source name))) ++ "\n" ++
        "Distinct elements: " ++ toString (elements compiled.source).length ++ "\n", 0⟩ := by
  rw [ElementsRequest.answer, ElementsRequest.source_eq hread hcompile]
  simp only [bind, Except.bind, pure, Except.pure]
  rw [linesText_countLines, elementCounts_eq, List.map_map, List.length_map]
  rfl

lemma ElementsRequest.answer_json (hread : disk.readText (directory.join file) = .ok raw)
    (hcompile : compiler raw = .ok compiled) :
    ∃ output, ElementsRequest.answer ⟨file, false, .json⟩ disk directory compiler =
        .ok ⟨output, 0⟩ ∧
      IsJsonOf (.array ((elements compiled.source).map fun name => .object [("name", .string name),
        ("occurrences", .ofNat (timesCalled compiled.source name))])) output := by
  refine ⟨_, by rw [ElementsRequest.answer, ElementsRequest.source_eq hread hcompile]; rfl, ?_⟩
  have hcounts : countsJson (elementCounts compiled.source) =
      .array ((elements compiled.source).map fun name => .object [("name", .string name),
        ("occurrences", .ofNat (timesCalled compiled.source name))]) := by
    rw [countsJson, elementCounts_eq, List.map_map]
    rfl
  rw [hcounts]
  have hfits : Value.Fits 2 (.array ((elements compiled.source).map fun name =>
      .object [("name", .string name),
        ("occurrences", .ofNat (timesCalled compiled.source name))])) :=
    Value.Fits.array_map (fun name => Value.Fits.object (List.forall_mem_cons.mpr
      ⟨Value.Fits.string name, List.forall_mem_singleton.mpr ⟨rfl, Nat.zero_le _⟩⟩)) _
  refine isJsonOf_jsonText (hfits.mono (by decide)) ?_
  rw [Value.sorted_array, List.map_map]
  rfl

lemma ValidateRequest.report_eq {request : ValidateRequest} (hpath : request.path = some file)
    (hread : disk.readText (directory.join file) = .ok raw)
    (hcompile : compiler raw = .ok compiled)
    (hlist : loadAllowList disk config directory request.allowList = .ok allowed) :
    let root := (request.walker config directory compiler allowed).root
    request.report disk config directory compiler = .ok ⟨root.text,
      [validate allowed ⟨documentId root (directory.join file), raw, compiled⟩], []⟩ := by
  let walker := request.walker config directory compiler allowed
  have hvalid : walker.validatePath disk (directory.join file) = .ok
      (validate allowed ⟨documentId walker.root (directory.join file), raw, compiled⟩) :=
    Walker.validatePath_eq_ok_iff.mpr ⟨raw, compiled, hread, hcompile, rfl⟩
  simp only [ValidateRequest.report, hlist, hpath, bind, Except.bind, pure, Except.pure]
  exact congrArg Except.ok (Walker.runSingle_eq hvalid)

lemma AllowListRequest.answer_eq {path : Option Path}
    (hlist : loadAllowList disk config directory path = .ok allowed) (names : List String)
    (format : Format) :
    AllowListRequest.answer ⟨names, path, format⟩ disk config directory =
      .ok ⟨if names = [] then listText format allowed else verdictText format allowed names,
        if allowed.disallowed names = [] then 0 else 1⟩ := by
  cases names with
  | nil => simp [AllowListRequest.answer, hlist, AllowList.disallowed, bind, Except.bind, pure,
      Except.pure]
  | cons name names => simp [AllowListRequest.answer, hlist, bind, Except.bind, pure, Except.pure]

lemma isJsonOf_verdictText (allowed : AllowList) (names : List String) :
    IsJsonOf (.object
      [("allowed", .array ((names.filter (· ∉ allowed.disallowed names)).map .string)),
        ("disallowed", .array ((allowed.disallowed names).map .string))])
      (verdictText .json allowed names) := by
  rw [← AllowList.filter_contains]
  have hfits : Value.Fits 2 (.object [("allowed", stringArray (names.filter allowed.contains)),
      ("disallowed", stringArray (allowed.disallowed names))]) :=
    Value.Fits.object (List.forall_mem_cons.mpr
      ⟨fits_stringArray _, List.forall_mem_singleton.mpr (fits_stringArray _)⟩)
  refine isJsonOf_jsonText (hfits.mono (by decide)) ?_
  simp only [Value.sorted, sortedFields, sortedItems_eq_map, List.map_map]
  rfl

/-- Of a document that can be read and compiled, the elements that are listed are those in its
report, each with the number of its calls. Held against the same allow-list by their names, they are
in order exactly when the report says so, and so are no elements at all; if there are any, those
that are not allowed are the details of the check, and the others are allowed. -/
theorem requests_agree {request : ValidateRequest} (hpath : request.path = some file)
    (hread : disk.readText (directory.join file) = .ok raw)
    (hcompile : compiler raw = .ok compiled)
    (hlist : loadAllowList disk config directory request.allowList = .ok allowed) :
    ∃ root report outcome,
      request.report disk config directory compiler = .ok ⟨root, [report], []⟩ ∧
      report.outcome? .elementAllowList = some outcome ∧
      (elementCounts compiled.source).map ElementCount.name = report.elements ∧
      ElementsRequest.answer ⟨file, false, .text⟩ disk directory compiler =
        .ok ⟨.join (report.elements.map fun name =>
            tableLine name (toString (timesCalled compiled.source name))) ++ "\n" ++
          "Distinct elements: " ++ toString report.elements.length ++ "\n", 0⟩ ∧
      (∃ output, ElementsRequest.answer ⟨file, false, .json⟩ disk directory compiler =
          .ok ⟨output, 0⟩ ∧
        IsJsonOf (.array (report.elements.map fun name => .object [("name", .string name),
          ("occurrences", .ofNat (timesCalled compiled.source name))])) output) ∧
      (∀ format, ∃ output,
        AllowListRequest.answer ⟨report.elements, request.allowList, format⟩ disk config directory =
          .ok ⟨output, if outcome.passed then 0 else 1⟩) ∧
      (report.elements = [] → outcome.passed = true) ∧
      (report.elements ≠ [] →
        AllowListRequest.answer ⟨report.elements, request.allowList, .text⟩ disk config directory =
          .ok ⟨.join (report.elements.map fun name =>
              tableLine name (if name ∈ outcome.details then "DISALLOWED" else "allowed")),
            if outcome.passed then 0 else 1⟩ ∧
        ∃ output, AllowListRequest.answer ⟨report.elements, request.allowList, .json⟩ disk config
            directory = .ok ⟨output, if outcome.passed then 0 else 1⟩ ∧
          IsJsonOf (.object
            [("allowed", .array ((report.elements.filter (· ∉ outcome.details)).map .string)),
              ("disallowed", .array (outcome.details.map .string))]) output) := by
  let outcome := elementAllowList allowed (elements compiled.source)
  obtain ⟨root, report, hreport, houtcome, helements⟩ : ∃ root report,
      request.report disk config directory compiler = .ok ⟨root, [report], []⟩ ∧
      report.outcome? .elementAllowList = some outcome ∧
      report.elements = elements compiled.source :=
    ⟨_, _, ValidateRequest.report_eq hpath hread hcompile hlist, outcome?_validate _ _ _, rfl⟩
  have hdetails : outcome.details = allowed.disallowed (elements compiled.source) :=
    Outcome.details_ofDetails _ _
  have hpassed : outcome.passed = true ↔ allowed.disallowed (elements compiled.source) = [] :=
    Outcome.passed_ofDetails
  have hanswer := AllowListRequest.answer_eq hlist (elements compiled.source)
  simp only [← hpassed] at hanswer
  refine ⟨root, report, outcome, hreport, houtcome, helements.symm, ?_⟩
  rw [helements, hdetails]
  refine ⟨ElementsRequest.answer_text hread hcompile, ElementsRequest.answer_json hread hcompile,
    fun format => ⟨_, hanswer format⟩, fun hnone => ?_, fun hsome => ⟨?_, ?_⟩⟩
  · rw [hpassed, hnone]
    rfl
  · rw [hanswer, if_neg hsome, verdictText, linesText_verdicts]
  · refine ⟨_, hanswer .json, ?_⟩
    rw [if_neg hsome]
    exact isJsonOf_verdictText allowed _

/-- A compiler that renders a paragraph and something that is not allowed, whatever the text is. -/
def quizCompiler : Compiler := fun _ => .ok ⟨none, "_jsx(_components.p), _jsx(\"Quiz\")"⟩

theorem requests_agree_quiz : ∃ root report outcome,
    ValidateRequest.report { path := some (.ofText "puzzles/a.mdx") } smallDisk Config.standard
      (.ofText "/") quizCompiler = .ok ⟨root, [report], []⟩ ∧
    report.outcome? .elementAllowList = some outcome ∧ report.elements = ["p", "Quiz"] ∧
    outcome.passed = false ∧
    ElementsRequest.answer ⟨.ofText "puzzles/a.mdx", false, .text⟩ smallDisk (.ofText "/")
      quizCompiler =
        .ok ⟨"p                                1\nQuiz                             1\n\n" ++
          "Distinct elements: 2\n", 0⟩ ∧
    ∃ output, AllowListRequest.answer ⟨["p", "Quiz"], none, .json⟩ smallDisk Config.standard
        (.ofText "/") = .ok ⟨output, 1⟩ ∧
      IsJsonOf (.object
        [("allowed", .array ((["p", "Quiz"].filter (· ∉ outcome.details)).map .string)),
          ("disallowed", .array (outcome.details.map .string))]) output := by
  have hlist : loadAllowList smallDisk Config.standard (.ofText "/") none = .ok AllowList.builtIn :=
    rfl
  obtain ⟨root, report, outcome, hreport, houtcome, helements, htext, -, hexit, -, hanswer⟩ :=
    @requests_agree smallDisk Config.standard (.ofText "/") (.ofText "puzzles/a.mdx") quizCompiler
      AllowList.builtIn "# A" ⟨none, "_jsx(_components.p), _jsx(\"Quiz\")"⟩
      { path := some (.ofText "puzzles/a.mdx") } rfl rfl rfl hlist
  have hnames : report.elements = ["p", "Quiz"] := by
    rw [← helements]
    decide
  have hquiz : AllowList.builtIn.contains "Quiz" = false := by
    have hnone : ∀ name ∈ AllowList.builtInElements, Text.trim name ≠ "Quiz" := by decide +kernel
    rw [AllowList.contains, List.contains_eq_mem, decide_eq_false_iff_not, AllowList.builtIn,
      AllowList.mem_ofNames]
    rintro ⟨-, name, hname, htrim⟩
    exact hnone name hname htrim
  have hdisallowed : AllowList.builtIn.disallowed ["p", "Quiz"] ≠ [] := by
    apply List.ne_nil_of_mem (a := "Quiz")
    simp [AllowList.disallowed, hquiz]
  have hfailed : outcome.passed = false := by
    obtain ⟨output, houtput⟩ := hexit .json
    rw [hnames, AllowListRequest.answer_eq hlist, if_neg hdisallowed] at houtput
    have hcode := congrArg Answer.exitCode (Except.ok.inj houtput)
    cases hpassed : outcome.passed with
    | false => rfl
    | true =>
      rw [hpassed] at hcode
      cases hcode
  obtain ⟨-, output, houtput, hjson⟩ := hanswer (by simp [hnames])
  rw [hnames, hfailed] at houtput
  rw [hnames] at htext hjson
  have hlines : String.join (["p", "Quiz"].map fun name =>
      tableLine name (toString (timesCalled "_jsx(_components.p), _jsx(\"Quiz\")" name))) ++ "\n" ++
        "Distinct elements: " ++ toString ["p", "Quiz"].length ++ "\n" =
      "p                                1\nQuiz                             1\n\n" ++
        "Distinct elements: 2\n" := by decide
  rw [hlines] at htext
  exact ⟨root, report, outcome, hreport, houtcome, hnames, hfailed, htext, output, houtput, hjson⟩

end PuzzleGate.Cli
