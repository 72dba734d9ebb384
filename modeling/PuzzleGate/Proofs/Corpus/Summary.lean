import PuzzleGate.Proofs.Corpus.Run
import PuzzleGate.Proofs.Report.StatusLines
import PuzzleGate.Proofs.Validator.Details

/-!
# The summary of a run can be forged

The summary of a run quotes texts that the run does not choose: identifiers, reasons of failures,
the root, and authors and contributors. Unless one of them has a line feed in it, the status lines
are those of the entries. A contributor of two lines is enough to add a document that has passed.
-/

namespace PuzzleGate.Corpus

open Files Json

namespace Walker

/-- A report on the documents at these paths: all that are found, or a single one. -/
inductive Reports (walker : Walker) (disk : Disk) : List Path → CorpusReport → Prop
  | run {paths : List Path} {report : CorpusReport}
    (hpaths : discover disk walker.root walker.extensions = .ok paths)
    (h : walker.run disk = .ok report) : Reports walker disk paths report
  | single (path : Path) : Reports walker disk [path] (walker.runSingle disk path)

/-- The texts from outside that a summary can have. -/
inductive Quotes (walker : Walker) (disk : Disk) (paths : List Path) : String → Prop
  | root : Quotes walker disk paths walker.root.text
  | identifier {path : Path} (hpath : path ∈ paths) :
    Quotes walker disk paths (documentId walker.root path)
  | error {path : Path} {fault : DocumentFault} (hpath : path ∈ paths)
    (h : walker.validatePath disk path = .error fault) : Quotes walker disk paths fault.message
  | detail {path : Path} {raw text : String} {compiled : Compiled} {check : Check}
    (hpath : path ∈ paths) (hread : disk.readText path = .ok raw)
    (hcompile : walker.compiler raw = .ok compiled)
    (h : IsQuotedBy compiled.frontmatter check text) : Quotes walker disk paths text

variable {walker : Walker} {disk : Disk} {paths : List Path} {report : CorpusReport}

lemma Reports.eq_collect (h : walker.Reports disk paths report) :
    report = walker.collect (paths.map (walker.result disk)) := by
  cases h with
  | run hpaths h =>
    unfold Walker.run at h
    rw [hpaths] at h
    simp only [bind, Except.bind, Except.mapError] at h
    split_ifs at h
    exact (Except.ok.inj h).symm
  | single path => rfl

lemma Reports.root_eq (h : walker.Reports disk paths report) : report.root = walker.root.text := by
  rw [h.eq_collect]
  rfl

/-- A text of several lines in a summary is one that the run does not choose. -/
lemma Reports.quotes (h : walker.Reports disk paths report) {text : String}
    (htext : text ∈ report.quoted) (hfeed : '\n' ∈ text.toList) :
    walker.Quotes disk paths text := by
  rw [CorpusReport.quoted, List.mem_append, List.mem_flatMap, List.mem_singleton] at htext
  rcases htext with ⟨entry, hentry, htext⟩ | rfl
  · rw [CorpusReport.entries, List.mem_append, List.mem_map, List.mem_map, h.eq_collect] at hentry
    rcases hentry with ⟨document, hdocument, rfl⟩ | ⟨failure, hfailure, rfl⟩
    · obtain ⟨path, hpath, hvalid⟩ := mem_documents.mp hdocument
      rcases List.mem_cons.mp htext with rfl | hdetail
      · rw [show document.entry.document = documentId walker.root path from
          document_of_validatePath hvalid]
        exact .identifier hpath
      · obtain ⟨raw, compiled, hread, hcompile, rfl⟩ := validatePath_eq_ok_iff.mp hvalid
        obtain ⟨outcome, houtcome, hdetail⟩ := List.mem_flatMap.mp hdetail
        exact .detail hpath hread hcompile
          (isQuotedBy_of_feed_mem (List.mem_of_mem_filter houtcome) hdetail hfeed)
    · obtain ⟨path, hpath, fault, hfault, rfl⟩ := mem_failures.mp hfailure
      rcases List.mem_cons.mp htext with rfl | herror
      · exact .identifier hpath
      · rw [List.mem_singleton.mp herror]
        exact .error hpath hfault
  · exact h.root_eq ▸ .root

lemma document_mem_quoted {entry : Entry} (h : entry ∈ report.entries) :
    entry.document ∈ report.quoted :=
  List.mem_append_left _ (List.mem_flatMap.mpr ⟨entry, h, List.mem_cons_self ..⟩)

lemma Reports.forged_eq_nil (h : walker.Reports disk paths report)
    (hquotes : ∀ text, walker.Quotes disk paths text → '\n' ∉ text.toList) :
    report.forged = [] ∧ ∀ entry ∈ report.entries, '\n' ∉ entry.document.toList := by
  have hfeed : ∀ text ∈ report.quoted, '\n' ∉ text.toList := fun text htext hmem =>
    hquotes text (h.quotes htext hmem) hmem
  refine ⟨?_, fun entry hentry => hfeed _ (document_mem_quoted hentry)⟩
  rw [CorpusReport.forged, List.flatMap_eq_nil_iff]
  exact fun text htext => forgedBy_of_not_mem (hfeed text htext)

/-- Of the lines of a summary that begin with a status there are as many as the counters say and
those that are forged, which stand behind a line feed in a text that the summary quotes. They are
exactly the status lines of the entries, in the order of the report, when none is forged and all
identifiers have one line. Texts of several lines come from outside: the root, identifiers, reasons
of failures, and the author or a contributor as the frontmatter gives them. -/
theorem status_lines_of_summary (h : walker.Reports disk paths report) :
    (∀ status, (statusLinesIn report.text).countP status.begins =
      report.counters.of status + report.forged.countP status.begins) ∧
    ((∀ status, (statusLinesIn report.text).countP status.begins = report.counters.of status) ↔
      report.forged = []) ∧
    (statusLinesIn report.text = report.statusLines ↔
      report.forged = [] ∧ ∀ entry ∈ report.entries, '\n' ∉ entry.document.toList) ∧
    (∀ text ∈ report.quoted, '\n' ∈ text.toList → walker.Quotes disk paths text) ∧
    ((∀ text, walker.Quotes disk paths text → '\n' ∉ text.toList) →
      statusLinesIn report.text = report.statusLines) := by
  have hcount (status : Status) : (statusLinesIn report.text).countP status.begins =
      report.counters.of status + report.forged.countP status.begins := by
    rw [report.countP_statusLinesIn_text, report.countP_statusLines_eq]
  refine ⟨hcount, ?_, report.statusLinesIn_text_eq_iff, fun _ => h.quotes, fun hquotes => ?_⟩
  · simp only [hcount, Nat.add_eq_left]
    exact report.forged_eq_nil_iff
  · exact report.statusLinesIn_text_eq_iff.mpr (h.forged_eq_nil hquotes)

/-- A record whose only contributor beside the author is this text. -/
def recordOf (contributor : String) : Compiled where
  frontmatter := some <| .object
    [("author", .string "0xaaaaaaaaaaaaaaaaaaaaaaaaaaaaaaaaaaaaaaaa"),
      ("contributors", stringArray ["0xaaaaaaaaaaaaaaaaaaaaaaaaaaaaaaaaaaaaaaaa", contributor])]
  source := ""

/-- Every document has this record. -/
def walkerOf (contributor : String) : Walker :=
  ⟨.ofText "/", ["mdx"], 1, fun _ => .ok (recordOf contributor), .builtIn⟩

def textDisk : Disk := ⟨.directory [(.ofText "a.mdx", .ofText "text")], .ofText "/"⟩

lemma runSingle_walkerOf (contributor : String) :
    (walkerOf contributor).runSingle textDisk (.ofText "/a.mdx") =
      ⟨"/", [validate .builtIn ⟨"a.mdx", "text", recordOf contributor⟩], []⟩ := by
  have hread : textDisk.readText (.ofText "/a.mdx") = .ok "text" := by decide +kernel
  have hdocument : documentId (.ofText "/") (.ofText "/a.mdx") = "a.mdx" := by decide
  refine runSingle_eq (validatePath_eq_ok_iff.mpr ⟨"text", recordOf contributor, hread, rfl, ?_⟩)
  rw [show (walkerOf contributor).root = .ofText "/" from rfl, hdocument]
  rfl

/-- A contributor of two lines, the second of which is no status. -/
theorem status_lines_of_summary_plain :
    let report := (walkerOf "x\ny").runSingle textDisk (.ofText "/a.mdx")
    statusLinesIn report.text = report.statusLines ∧
      (statusLinesIn report.text).countP Status.failed.begins = 1 ∧
      (walkerOf "x\ny").Quotes textDisk [.ofText "/a.mdx"] "x\ny" := by
  intro report
  have hreport : report = _ := runSingle_walkerOf "x\ny"
  have hforged : report.forged = [] := by
    rw [hreport]
    decide +kernel
  have hfeed : ∀ entry ∈ report.entries, '\n' ∉ entry.document.toList := by
    rw [hreport]
    exact List.forall_mem_singleton.mpr (by decide)
  have hquoted : "x\ny" ∈ report.quoted := by
    rw [hreport]
    decide +kernel
  have hfailed : report.counters.of .failed = 1 := by
    rw [hreport]
    decide +kernel
  obtain ⟨-, hcounts, hlines, hquotes, -⟩ := status_lines_of_summary
    (.single (.ofText "/a.mdx") : (walkerOf "x\ny").Reports textDisk [.ofText "/a.mdx"] report)
  exact ⟨hlines.mpr ⟨hforged, hfeed⟩, (hcounts.mpr hforged .failed).trans hfailed,
    hquotes _ hquoted (by decide)⟩

/-- A contributor of two lines, the second of which reads as the status of a document that does not
exist. -/
theorem status_lines_of_summary_forged :
    let report := (walkerOf "x\nPASS b.mdx").runSingle textDisk (.ofText "/a.mdx")
    statusLinesIn report.text = ["FAIL a.mdx", "PASS b.mdx"] ∧
      report.statusLines = ["FAIL a.mdx"] ∧ report.counters = ⟨1, 0, 1, 0⟩ := by
  intro report
  have hreport : report = _ := runSingle_walkerOf "x\nPASS b.mdx"
  rw [CorpusReport.statusLinesIn_text, hreport]
  decide +kernel

end Walker

end PuzzleGate.Corpus
