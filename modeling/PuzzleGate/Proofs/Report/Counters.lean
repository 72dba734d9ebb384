import PuzzleGate.Proofs.Report

/-!
# The counters of a report

A report keeps each of its entries once, in the stable order of the identifiers, so nothing that it
counts depends on the order in which the entries came. Every document is counted as passed, failed
or errored, and a report is in order exactly when all of them have passed.
-/

namespace PuzzleGate

/-- The entries in the byte order of their keys, where entries with one key are in the order in
which they came. -/
structure IsStablySorted {α : Type} (key : α → String) (entries sorted : List α) : Prop where
  perm : sorted.Perm entries
  ordered : sorted.Pairwise fun a b => Text.Utf8.bytes (key a) ≤ Text.Utf8.bytes (key b)
  stable (k : String) : sorted.filter (key · = k) = entries.filter (key · = k)

theorem isStablySorted_sortBy {α : Type} (key : α → String) (entries : List α) :
    IsStablySorted key entries (sortBy key entries) := by
  have hperm := sortBy_perm key entries
  refine ⟨hperm, (pairwise_sortBy key entries).imp Text.bytes_le_iff.mpr, fun k => ?_⟩
  have hsame : (entries.filter (key · = k)).Pairwise fun a b => decide (key a ≤ key b) = true := by
    refine List.pairwise_of_forall_mem_list fun a ha b hb => ?_
    have hka : key a = k := by simpa using List.of_mem_filter ha
    have hkb : key b = k := by simpa using List.of_mem_filter hb
    have hle : key a ≤ key b := hka.trans hkb.symm ▸ String.le_refl (key a)
    exact decide_eq_true hle
  have hsublist : (entries.filter (key · = k)).Sublist (sortBy key entries) :=
    List.sublist_mergeSort (byKey_trans key) (byKey_total key) hsame List.filter_sublist
  have hfilter := hsublist.filter (key · = k)
  simp only [List.filter_filter, Bool.and_self] at hfilter
  exact (hfilter.eq_of_length (hperm.filter _).length_eq.symm).symm

/-- What the summary of a report says in numbers. -/
structure Counters where
  total : Nat
  passed : Nat
  failed : Nat
  errored : Nat
deriving DecidableEq

/-- The lines of the summary that say them. -/
def Counters.lines (counters : Counters) : List String :=
  [s!"Total:   {counters.total}", s!"Passed:  {counters.passed}", s!"Failed:  {counters.failed}",
    s!"Errored: {counters.errored}"]

namespace CorpusReport

/-- The numbers as the summary computes them. -/
def counters (report : CorpusReport) : Counters where
  total := report.total
  passed := report.passedCount
  failed := report.documents.length - report.passedCount
  errored := report.failures.length

/-- The summary ends with the counters. -/
theorem exists_text_eq (report : CorpusReport) :
    ∃ before, report.text = before ++ "\n" ++ "\n".intercalate report.counters.lines := by
  have hlines : report.lines =
      (report.documents.flatMap DocumentReport.lines ++
        report.failures.flatMap DocumentFailure.lines ++
        ["", "=== Puzzle Content Validation ===", s!"Root:    {report.root}"]) ++
      report.counters.lines := by
    rw [List.append_assoc]
    rfl
  rw [text, hlines, String.intercalate_append_of_ne_nil (by simp) (by simp [Counters.lines])]
  exact ⟨_, rfl⟩

lemma passedCount_eq_countP (report : CorpusReport) :
    report.passedCount = report.documents.countP DocumentReport.passed :=
  List.countP_eq_length_filter.symm

lemma passedCount_le (report : CorpusReport) : report.passedCount ≤ report.documents.length := by
  rw [passedCount_eq_countP]
  exact List.countP_le_length

theorem passed_iff_passedCount {report : CorpusReport} :
    report.passed = true ↔ report.passedCount = report.total := by
  have hle := report.passedCount_le
  rw [passed, Bool.and_eq_true, List.isEmpty_iff, List.all_eq_true, ← List.countP_eq_length,
    ← passedCount_eq_countP, ← List.length_eq_zero_iff, total]
  omega

lemma total_eq (report : CorpusReport) :
    report.total = report.passedCount + (report.documents.length - report.passedCount) +
      report.failures.length := by
  have hle := report.passedCount_le
  rw [total]
  omega

/-- The counters of a report count the entries that it was made of. -/
theorem counters_ofEntries (root : String) (documents : List DocumentReport)
    (failures : List DocumentFailure) :
    (ofEntries root documents failures).counters =
      ⟨documents.length + failures.length, documents.countP DocumentReport.passed,
        documents.countP fun report => !report.passed, failures.length⟩ := by
  have hdocuments := sortBy_perm DocumentReport.document documents
  have hfailures : (ofEntries root documents failures).failures.length = failures.length :=
    (sortBy_perm DocumentFailure.document failures).length_eq
  have hlength : (ofEntries root documents failures).documents.length = documents.length :=
    hdocuments.length_eq
  have hcount : (ofEntries root documents failures).passedCount =
      documents.countP DocumentReport.passed := by
    rw [passedCount_eq_countP]
    exact hdocuments.countP_eq _
  have hfailed : documents.length - documents.countP DocumentReport.passed =
      documents.countP fun report => !report.passed := by
    rw [List.length_eq_countP_add_countP DocumentReport.passed, Nat.add_sub_cancel_left]
    simp
  rw [counters, total, hcount, hlength, hfailures, hfailed]

/-- A report keeps every entry once, sorted stably by the bytes of the identifiers. The counters
that its summary ends with add up, it is in order exactly when all that it counts have passed, and
none of this depends on the order in which the entries came. -/
theorem entries_are_counted_once (root : String) (documents : List DocumentReport)
    (failures : List DocumentFailure) :
    let report := ofEntries root documents failures
    IsStablySorted DocumentReport.document documents report.documents ∧
    IsStablySorted DocumentFailure.document failures report.failures ∧
    report.passedCount ≤ report.documents.length ∧
    (∃ before, report.text = before ++ "\n" ++ "\n".intercalate report.counters.lines) ∧
    report.counters.total =
      report.counters.passed + report.counters.failed + report.counters.errored ∧
    report.counters = ⟨documents.length + failures.length, documents.countP DocumentReport.passed,
      documents.countP fun report => !report.passed, failures.length⟩ ∧
    (report.passed = true ↔ report.passedCount = report.total) ∧
    (report.passedCount = report.total ↔ report.exitCode = 0) ∧
    ∀ documents' failures', documents'.Perm documents → failures'.Perm failures →
      let report' := ofEntries root documents' failures'
      report'.counters = report.counters ∧ report'.passed = report.passed ∧
        report'.exitCode = report.exitCode := by
  intro report
  refine ⟨isStablySorted_sortBy _ _, isStablySorted_sortBy _ _, report.passedCount_le,
    report.exists_text_eq, report.total_eq, counters_ofEntries .., passed_iff_passedCount, ?_, ?_⟩
  · rw [← passed_iff_passedCount, exitCode_eq_zero]
  · intro documents' failures' hdocuments hfailures report'
    have hcounters : report'.counters = report.counters := by
      rw [counters_ofEntries, counters_ofEntries, hdocuments.length_eq, hfailures.length_eq,
        hdocuments.countP_eq, hdocuments.countP_eq]
    have htotal : report'.total = report.total := congrArg Counters.total hcounters
    have hcount : report'.passedCount = report.passedCount := congrArg Counters.passed hcounters
    have hpassed : report'.passed = report.passed := by
      rw [Bool.eq_iff_iff, passed_iff_passedCount, passed_iff_passedCount, htotal, hcount]
    refine ⟨hcounters, hpassed, ?_⟩
    rw [exitCode, exitCode, hpassed]

/-- One of two documents with the same identifier, of which only one passed. -/
def twin (passed : Bool) : DocumentReport := ⟨"a.mdx", [⟨.authorFormat, passed, []⟩], [], none⟩

/-- It makes no difference to the counters which of the two comes first. -/
theorem entries_are_counted_once_twins :
    [twin false, twin true].Perm [twin true, twin false] ∧
    (ofEntries "puzzles" [twin false, twin true] [⟨"b.mdx", "unreadable"⟩]).counters =
      ⟨3, 1, 1, 1⟩ ∧
    (ofEntries "puzzles" [twin true, twin false] [⟨"b.mdx", "unreadable"⟩]).counters =
      ⟨3, 1, 1, 1⟩ := by
  have hswap : [twin false, twin true].Perm [twin true, twin false] := .swap _ _ _
  have hfirst := entries_are_counted_once "puzzles" [twin true, twin false]
    [⟨"b.mdx", "unreadable"⟩]
  have hcounters : (ofEntries "puzzles" [twin true, twin false]
      [⟨"b.mdx", "unreadable"⟩]).counters = ⟨3, 1, 1, 1⟩ := hfirst.2.2.2.2.2.1
  have hsame := (hfirst.2.2.2.2.2.2.2.2 _ _ hswap (.refl _)).1
  exact ⟨hswap, hsame.trans hcounters, hcounters⟩

end CorpusReport

end PuzzleGate
