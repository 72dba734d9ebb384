import Mathlib.Data.List.Nodup
import PuzzleGate.Proofs.Text.Order
import PuzzleGate.Report

/-!
# Sorted reports

Sorting the entries of a report changes nothing about whether it passes. When no two entries have
one identifier, there is only one way to sort them, and they come in the strict byte order of
their identifiers.
-/

namespace PuzzleGate

section Sorting

variable {α : Type} (key : α → String)

/-- Sorts by a key. -/
def sortBy (entries : List α) : List α := entries.mergeSort fun a b => decide (key a ≤ key b)

lemma byKey_trans (a b c : α) (hab : decide (key a ≤ key b) = true)
    (hbc : decide (key b ≤ key c) = true) : decide (key a ≤ key c) = true := by
  rw [decide_eq_true_eq] at hab hbc ⊢
  exact String.le_trans hab hbc

lemma byKey_total (a b : α) : (decide (key a ≤ key b) || decide (key b ≤ key a)) = true := by
  rw [Bool.or_eq_true, decide_eq_true_eq, decide_eq_true_eq]
  exact String.le_total _ _

lemma pairwise_sortBy (entries : List α) :
    (sortBy key entries).Pairwise fun a b => key a ≤ key b := by
  have hsorted := List.pairwise_mergeSort (byKey_trans key) (byKey_total key) entries
  exact hsorted.imp fun hab => by simpa using hab

lemma sortBy_perm (entries : List α) : (sortBy key entries).Perm entries :=
  List.mergeSort_perm entries _

variable {key}

theorem sortBy_eq_of_perm {entries entries' : List α} (hperm : entries.Perm entries')
    (hnodup : (entries.map key).Nodup) : sortBy key entries = sortBy key entries' := by
  refine List.Perm.eq_of_pairwise (fun a b ha hb hab hba => ?_) (pairwise_sortBy key entries)
    (pairwise_sortBy key entries') ?_
  · have ha' : a ∈ entries := (sortBy_perm key entries).mem_iff.mp ha
    have hb' : b ∈ entries := hperm.mem_iff.mpr ((sortBy_perm key entries').mem_iff.mp hb)
    exact List.inj_on_of_nodup_map hnodup ha' hb' (String.le_antisymm hab hba)
  · exact (sortBy_perm key entries).trans (hperm.trans (sortBy_perm key entries').symm)

theorem pairwise_lt_sortBy {entries : List α} (hnodup : (entries.map key).Nodup) :
    (sortBy key entries).Pairwise fun a b => Text.Utf8.bytes (key a) < Text.Utf8.bytes (key b) := by
  have hne : (sortBy key entries).Pairwise fun a b => key a ≠ key b := by
    rw [← List.pairwise_map]
    exact (((sortBy_perm key entries).map key).nodup_iff).mpr hnodup
  refine ((pairwise_sortBy key entries).and hne).imp fun ⟨hle, hne⟩ => ?_
  rw [Text.bytes_lt_iff]
  by_contra hnot
  exact hne (String.le_antisymm hle (String.not_lt.mp hnot))

end Sorting

lemma CorpusReport.passed_ofEntries {root : String} {documents : List DocumentReport}
    {failures : List DocumentFailure} :
    (CorpusReport.ofEntries root documents failures).passed = true ↔
      failures = [] ∧ ∀ report ∈ documents, report.passed = true := by
  rw [CorpusReport.passed, CorpusReport.ofEntries, Bool.and_eq_true, List.isEmpty_iff,
    List.all_eq_true]
  simp only [List.mem_mergeSort]
  rw [← List.length_eq_zero_iff, List.length_mergeSort, List.length_eq_zero_iff]

lemma CorpusReport.exitCode_eq_zero {report : CorpusReport} :
    report.exitCode = 0 ↔ report.passed = true := by
  rw [CorpusReport.exitCode]
  split <;> simp_all

lemma CorpusReport.exitCode_eq_one {report : CorpusReport} (h : report.exitCode ≠ 0) :
    report.exitCode = 1 := by
  unfold CorpusReport.exitCode at h ⊢
  split at h
  · exact absurd rfl h
  · rename_i hfailed
    exact if_neg hfailed

end PuzzleGate
