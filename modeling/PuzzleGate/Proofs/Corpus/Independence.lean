import PuzzleGate.Proofs.Corpus.Run
import PuzzleGate.Proofs.Corpus.Schedule

/-!
# Runs and schedules

However the documents of a run are scheduled, and in whatever order their results are collected,
the report is the one that comes from validating each of them alone. What it says of a document
depends on that document and not on what is in the others.
-/

namespace PuzzleGate.Corpus

open Files

/-- The report has one entry for each of these documents and says of each what validating it alone
gives, in the strict byte order of the identifiers. -/
structure Walker.IsReport (walker : Walker) (disk : Disk) (paths : List Path)
    (report : CorpusReport) : Prop where
  root : report.root = walker.root.text
  documents (entry : DocumentReport) : entry ∈ report.documents ↔
    ∃ path ∈ paths, walker.validatePath disk path = .ok entry
  failures (entry : DocumentFailure) : entry ∈ report.failures ↔
    ∃ path ∈ paths, ∃ fault, walker.validatePath disk path = .error fault ∧
      entry = ⟨documentId walker.root path, fault.message⟩
  once : (report.documents.map DocumentReport.document ++
    report.failures.map DocumentFailure.document).Perm (paths.map (documentId walker.root))
  distinct : (paths.map (documentId walker.root)).Nodup
  sortedDocuments : report.documents.Pairwise fun a b =>
    Text.Utf8.bytes a.document < Text.Utf8.bytes b.document
  sortedFailures : report.failures.Pairwise fun a b =>
    Text.Utf8.bytes a.document < Text.Utf8.bytes b.document

theorem Walker.isReport_collect {walker : Walker} {disk : Disk} {paths : List Path}
    (h : (paths.map (documentId walker.root)).Nodup) :
    walker.IsReport disk paths (walker.collect (paths.map (walker.result disk))) := by
  obtain ⟨hdocuments, hfailures⟩ := nodup_entries disk h
  refine ⟨rfl, fun entry => mem_documents, fun entry => mem_failures, ?_, h, ?_, ?_⟩
  · rw [collect_eq]
    have hsorted := (sortBy_perm DocumentReport.document
      (paths.filterMap (walker.entryOf? disk))).map DocumentReport.document
    have hsortedErrors := (sortBy_perm DocumentFailure.document
      (paths.filterMap (walker.failureAt? disk))).map DocumentFailure.document
    exact (hsorted.append hsortedErrors).trans (entries_perm walker disk paths)
  · rw [collect_eq]
    exact pairwise_lt_sortBy hdocuments
  · rw [collect_eq]
    exact pairwise_lt_sortBy hfailures

/-- Both reports say the same of the document with this identifier. -/
def AgreeOn (document : String) (a b : CorpusReport) : Prop :=
  (∀ entry, entry.document = document → (entry ∈ a.documents ↔ entry ∈ b.documents)) ∧
    ∀ entry, entry.document = document → (entry ∈ a.failures ↔ entry ∈ b.failures)

section Agree

variable {walker : Walker} {disk disk' : Disk} {paths : List Path} {path : Path}

lemma Walker.IsReport.mem_documents_iff {report : CorpusReport}
    (h : walker.IsReport disk paths report) (hpath : path ∈ paths) {entry : DocumentReport}
    (hentry : entry.document = documentId walker.root path) :
    entry ∈ report.documents ↔ walker.validatePath disk path = .ok entry := by
  rw [h.documents]
  constructor
  · rintro ⟨other, hother, hvalid⟩
    have hsame : documentId walker.root other = documentId walker.root path := by
      rw [← hentry, document_of_validatePath hvalid]
    rw [← List.inj_on_of_nodup_map h.distinct hother hpath hsame]
    exact hvalid
  · intro hvalid
    exact ⟨path, hpath, hvalid⟩

lemma Walker.IsReport.mem_failures_iff {report : CorpusReport}
    (h : walker.IsReport disk paths report) (hpath : path ∈ paths) {entry : DocumentFailure}
    (hentry : entry.document = documentId walker.root path) :
    entry ∈ report.failures ↔
      ∃ fault, walker.validatePath disk path = .error fault ∧ entry.error = fault.message := by
  rw [h.failures]
  constructor
  · rintro ⟨other, hother, fault, hvalid, rfl⟩
    rw [← List.inj_on_of_nodup_map h.distinct hother hpath hentry]
    exact ⟨fault, hvalid, rfl⟩
  · rintro ⟨fault, hvalid, herror⟩
    obtain ⟨document, error⟩ := entry
    obtain rfl : document = documentId walker.root path := hentry
    obtain rfl : error = fault.message := herror
    exact ⟨path, hpath, fault, hvalid, rfl⟩

lemma Walker.IsReport.agreeOn {report report' : CorpusReport}
    (h : walker.IsReport disk paths report) (h' : walker.IsReport disk' paths report')
    (hpath : path ∈ paths)
    (hsame : walker.validatePath disk' path = walker.validatePath disk path) :
    AgreeOn (documentId walker.root path) report' report := by
  constructor
  · intro entry hentry
    rw [h.mem_documents_iff hpath hentry, h'.mem_documents_iff hpath hentry, hsame]
  · intro entry hentry
    rw [h.mem_failures_iff hpath hentry, h'.mem_failures_iff hpath hentry, hsame]

end Agree

lemma validatePath_withContent {walker : Walker} {disk : Disk} {paths : List Path}
    {places : Path → List FileName} (hplaces : ArePlaces disk paths places) {path other : Path}
    (hpath : path ∈ paths) (hother : other ∈ paths) (hne : other ≠ path)
    (content : Except Fault ByteArray) :
    walker.validatePath (disk.withContent (places path) content) other =
      walker.validatePath disk other := by
  obtain ⟨old, hold⟩ := hplaces.file path hpath
  have haway : disk.place other ≠ .ok (places path) := by
    intro hplace
    have hsame := hplaces.place other hother _ hplace
    exact hne (hplaces.distinct path hpath other hother hsame.symm)
  have hread := readBytes_withContent hold content haway
  unfold Walker.validatePath Disk.readText
  rw [hread]

lemma discover_withContent {disk : Disk} {root : Path} {extensions : List String}
    {paths : List Path} {place : List FileName} {old : Except Fault ByteArray}
    (hpaths : discover disk root extensions = .ok paths)
    (hold : disk.root.at? place.reverse = some (.file old)) (content : Except Fault ByteArray) :
    discover (disk.withContent place content) root extensions = .ok paths := by
  have hdirectory : (disk.withContent place content).directory = disk.directory := rfl
  have hblank : (disk.withContent place content).root.blank = disk.root.blank := put_blank hold
  exact discover_of_blank hdirectory hblank hpaths

/-- A corpus of two documents, of which only the first is UTF-8. -/
def pairDisk : Disk :=
  ⟨.directory [(.ofText "p", .directory
    [(.ofText "a.mdx", .ofText ""), (.ofText "b.mdx", .file (.ok ⟨#[0xff]⟩))])], .ofText "/"⟩

/-- Validates the corpus of two documents, both at once, with a compiler that renders nothing. -/
def pairWalker : Walker := ⟨.ofText "/p", ["mdx"], 2, fun _ => .ok ⟨none, ""⟩, AllowList.builtIn⟩

lemma discover_pair : discover pairDisk pairWalker.root pairWalker.extensions =
    .ok [.ofText "/p/a.mdx", .ofText "/p/b.mdx"] := by
  refine discover_eq_ok_iff.mpr ⟨_, rfl, rfl, ?_⟩
  have hdocuments : documentsIn pairWalker.extensions pairWalker.root (.directory
      [(.ofText "a.mdx", .ofText ""), (.ofText "b.mdx", .file (.ok ⟨#[0xff]⟩))]) =
        [.ofText "/p/a.mdx", .ofText "/p/b.mdx"] := rfl
  rw [hdocuments]
  exact (List.mergeSort_of_pairwise (by decide)).symm

end PuzzleGate.Corpus
