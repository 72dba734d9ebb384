import PuzzleGate.Corpus.Run
import PuzzleGate.Proofs.Corpus.Discovery
import PuzzleGate.Proofs.Report

/-!
# Results of a run

A run reports one result for each document that is found.
-/

namespace PuzzleGate.Corpus

open Files

lemma Walker.reportOf?_eq_some {result : Walker.Result} {report : DocumentReport} :
    Walker.reportOf? result = some report ↔ result.2 = .ok report := by
  obtain ⟨document, outcome⟩ := result
  cases outcome <;> simp [Walker.reportOf?]

lemma Walker.failureOf?_eq_none {result : Walker.Result} :
    Walker.failureOf? result = none ↔ ∃ report, result.2 = .ok report := by
  obtain ⟨document, outcome⟩ := result
  cases outcome <;> simp [Walker.failureOf?]

lemma Walker.passed_collect {walker : Walker} {results : List Walker.Result} :
    (walker.collect results).passed = true ↔
      ∀ result ∈ results, ∃ report, result.2 = .ok report ∧ report.passed = true := by
  rw [Walker.collect, CorpusReport.passed_ofEntries, List.filterMap_eq_nil_iff]
  simp only [Walker.failureOf?_eq_none, List.mem_filterMap, Walker.reportOf?_eq_some]
  constructor
  · rintro ⟨hok, hpassed⟩ result hresult
    obtain ⟨report, hreport⟩ := hok result hresult
    exact ⟨report, hreport, hpassed report ⟨result, hresult, hreport⟩⟩
  · intro h
    refine ⟨fun result hresult => ?_, ?_⟩
    · obtain ⟨report, hreport, -⟩ := h result hresult
      exact ⟨report, hreport⟩
    · rintro report ⟨result, hresult, hreport⟩
      obtain ⟨report', hreport', hpassed⟩ := h result hresult
      rw [hreport] at hreport'
      obtain rfl := Except.ok.inj hreport'
      exact hpassed

lemma Walker.validatePath_eq_ok_iff {walker : Walker} {disk : Disk} {path : Path}
    {report : DocumentReport} : walker.validatePath disk path = .ok report ↔
    ∃ raw compiled, disk.readText path = .ok raw ∧ walker.compiler raw = .ok compiled ∧
      report = validate walker.allowed ⟨documentId walker.root path, raw, compiled⟩ := by
  unfold Walker.validatePath
  cases hread : disk.readText path with
  | error fault => simp [bind, Except.bind, Except.mapError]
  | ok raw =>
    cases hcompile : walker.compiler raw with
    | error fault => simp [bind, Except.bind, Except.mapError, hcompile]
    | ok compiled =>
      simp [bind, Except.bind, Except.mapError, hcompile, pure, Except.pure, eq_comm]

/-- A run within the limit only fails to find its documents. -/
theorem Walker.run_eq {walker : Walker} {disk : Disk} (hlimit : permits walker.limit ≤ maxPermits) :
    walker.run disk = match discover disk walker.root walker.extensions with
      | .error fault => .error (.missingRoot fault)
      | .ok paths => .ok (walker.collect (paths.map (walker.result disk))) := by
  unfold Walker.run
  cases discover disk walker.root walker.extensions with
  | error fault => rfl
  | ok paths =>
    have hfree : ¬ maxPermits < permits walker.limit := Nat.not_lt.mpr hlimit
    simp [bind, Except.bind, Except.mapError, hfree, pure, Except.pure]

lemma Walker.runSingle_eq {walker : Walker} {disk : Disk} {path : Path}
    {report : DocumentReport} (h : walker.validatePath disk path = .ok report) :
    walker.runSingle disk path = ⟨walker.root.text, [report], []⟩ := by
  have hresult : walker.result disk path = (documentId walker.root path, .ok report) := by
    rw [Walker.result, h]
  have hdocuments : [walker.result disk path].filterMap Walker.reportOf? = [report] := by
    rw [hresult]
    rfl
  have hfailures : [walker.result disk path].filterMap Walker.failureOf? = [] := by
    rw [hresult]
    rfl
  rw [Walker.runSingle, Walker.collect, hdocuments, hfailures, CorpusReport.ofEntries,
    List.mergeSort_singleton, List.mergeSort_nil]

namespace Walker

variable (walker : Walker) (disk : Disk)

lemma document_of_validatePath {walker : Walker} {disk : Disk} {path : Path}
    {report : DocumentReport} (h : walker.validatePath disk path = .ok report) :
    report.document = documentId walker.root path := by
  obtain ⟨raw, compiled, -, -, rfl⟩ := validatePath_eq_ok_iff.mp h
  rfl

/-- The entry of a document whose validation comes to an end. -/
def entryOf? (path : Path) : Option DocumentReport := reportOf? (walker.result disk path)

/-- The entry of a document that cannot be read or compiled. -/
def failureAt? (path : Path) : Option DocumentFailure := failureOf? (walker.result disk path)

lemma collect_eq (paths : List Path) : walker.collect (paths.map (walker.result disk)) =
    ⟨walker.root.text, sortBy DocumentReport.document (paths.filterMap (walker.entryOf? disk)),
      sortBy DocumentFailure.document (paths.filterMap (walker.failureAt? disk))⟩ := by
  rw [collect, CorpusReport.ofEntries, List.filterMap_map, List.filterMap_map]
  rfl

variable {walker disk}

lemma entryOf?_eq_some {path : Path} {report : DocumentReport} :
    walker.entryOf? disk path = some report ↔ walker.validatePath disk path = .ok report :=
  reportOf?_eq_some

lemma failureAt?_eq_some {path : Path} {failure : DocumentFailure} :
    walker.failureAt? disk path = some failure ↔
      ∃ fault, walker.validatePath disk path = .error fault ∧
        failure = ⟨documentId walker.root path, fault.message⟩ := by
  unfold failureAt? result
  cases walker.validatePath disk path with
  | ok report => simp [failureOf?]
  | error fault => simp [failureOf?, eq_comm]

theorem mem_documents {paths : List Path} {entry : DocumentReport} :
    entry ∈ (walker.collect (paths.map (walker.result disk))).documents ↔
      ∃ path ∈ paths, walker.validatePath disk path = .ok entry := by
  rw [collect_eq, (sortBy_perm _ _).mem_iff, List.mem_filterMap]
  simp only [entryOf?_eq_some]

theorem mem_failures {paths : List Path} {entry : DocumentFailure} :
    entry ∈ (walker.collect (paths.map (walker.result disk))).failures ↔
      ∃ path ∈ paths, ∃ fault, walker.validatePath disk path = .error fault ∧
        entry = ⟨documentId walker.root path, fault.message⟩ := by
  rw [collect_eq, (sortBy_perm _ _).mem_iff, List.mem_filterMap]
  simp only [failureAt?_eq_some]

variable (walker disk) in
/-- Every document gives one entry, in one of the two lists. -/
theorem entries_perm (paths : List Path) :
    ((paths.filterMap (walker.entryOf? disk)).map DocumentReport.document ++
      (paths.filterMap (walker.failureAt? disk)).map DocumentFailure.document).Perm
        (paths.map (documentId walker.root)) := by
  induction paths with
  | nil => exact List.Perm.refl _
  | cons path paths ih =>
    cases hvalid : walker.validatePath disk path with
    | ok report =>
      have hentry : walker.entryOf? disk path = some report := entryOf?_eq_some.mpr hvalid
      have hfailure : walker.failureAt? disk path = none := by
        simp [failureAt?, result, hvalid, failureOf?]
      rw [List.filterMap_cons_some hentry, List.filterMap_cons_none hfailure, List.map_cons,
        List.map_cons, document_of_validatePath hvalid]
      exact ih.cons _
    | error fault =>
      have hentry : walker.entryOf? disk path = none := by
        simp [entryOf?, result, hvalid, reportOf?]
      have hfailure : walker.failureAt? disk path =
          some ⟨documentId walker.root path, fault.message⟩ :=
        failureAt?_eq_some.mpr ⟨fault, hvalid, rfl⟩
      rw [List.filterMap_cons_none hentry, List.filterMap_cons_some hfailure, List.map_cons,
        List.map_cons]
      exact List.perm_middle.trans (ih.cons _)

variable (disk) in
lemma nodup_entries {paths : List Path} (h : (paths.map (documentId walker.root)).Nodup) :
    ((paths.filterMap (walker.entryOf? disk)).map DocumentReport.document).Nodup ∧
      ((paths.filterMap (walker.failureAt? disk)).map DocumentFailure.document).Nodup := by
  have hnodup := (entries_perm walker disk paths).nodup_iff.mpr h
  exact ⟨hnodup.of_append_left, hnodup.of_append_right⟩

/-- The order in which the results come makes no difference to the report. -/
theorem collect_perm {paths : List Path} {results : List Result}
    (hperm : results.Perm (paths.map (walker.result disk)))
    (h : (paths.map (documentId walker.root)).Nodup) :
    walker.collect results = walker.collect (paths.map (walker.result disk)) := by
  obtain ⟨hdocuments, hfailures⟩ := nodup_entries disk h
  have hreports := hperm.filterMap reportOf?
  have herrors := hperm.filterMap failureOf?
  rw [List.filterMap_map] at hreports herrors
  have hsorted := sortBy_eq_of_perm hreports.symm hdocuments
  have hsortedErrors := sortBy_eq_of_perm herrors.symm hfailures
  rw [collect_eq]
  exact congrArg₂ (CorpusReport.mk walker.root.text) hsorted.symm hsortedErrors.symm

end Walker

end PuzzleGate.Corpus
