import PuzzleGate.Proofs.Json.Sorted
import PuzzleGate.Report

/-!
# Reports as JSON values

A report is written with whole numbers only and with a few levels of arrays and objects, however
many documents it is about, so that its text can always be parsed. Its objects have their keys in an
order of their own, and each of them once: what is parsed has the same entries under the same keys.
-/

namespace PuzzleGate

open Json Value

lemma fits_stringArray (texts : List String) : (stringArray texts).Fits 1 :=
  Fits.array_map Fits.string texts

lemma tree_stringArray (texts : List String) :
    (stringArray texts).tree = .array (texts.map fun text => (Value.string text).tree) true := by
  rw [stringArray, Value.tree, itemTrees_eq_map, List.map_map]
  rfl

lemma sorted_stringArray (texts : List String) :
    (stringArray texts).sorted = stringArray texts := by
  rw [stringArray, Value.sorted_array, List.map_map]
  rfl

lemma Outcome.fits_toJson (outcome : Outcome) : outcome.toJson.Fits 2 := by
  refine Fits.object (List.forall_mem_append.mpr ⟨?_, ?_⟩)
  · exact List.forall_mem_cons.mpr ⟨Fits.string _, List.forall_mem_singleton.mpr (Fits.bool _)⟩
  · split
    · exact List.forall_mem_nil _
    · exact List.forall_mem_singleton.mpr (fits_stringArray _)

namespace Metadata

/-- The fields of the record as JSON. -/
def fields (metadata : Metadata) : List (String × Value) :=
  [("author", .string metadata.author.text),
    ("contributors", stringArray (metadata.contributors.map Address.text))] ++
  (metadata.adaptedFrom.map fun source => ("adapted_from", .string source)).toList

lemma toJson_eq (metadata : Metadata) : metadata.toJson = .object metadata.fields := by
  rw [fields, stringArray, List.map_map]
  rfl

lemma fits_toJson (metadata : Metadata) : metadata.toJson.Fits 2 := by
  rw [toJson_eq]
  refine Fits.object (List.forall_mem_append.mpr ⟨?_, ?_⟩)
  · exact List.forall_mem_cons.mpr
      ⟨Fits.string _, List.forall_mem_singleton.mpr (fits_stringArray _)⟩
  · cases metadata.adaptedFrom with
    | none => exact List.forall_mem_nil _
    | some source => exact List.forall_mem_singleton.mpr (Fits.string _)

lemma nodup_keys (metadata : Metadata) : (metadata.fields.map Prod.fst).Nodup := by
  cases hsource : metadata.adaptedFrom <;> simp [fields, hsource]

end Metadata

namespace DocumentReport

lemma fits_toJson (report : DocumentReport) : report.toJson.Fits 4 := by
  have hchecks : (Value.array (report.checks.map Outcome.toJson)).Fits 3 :=
    Fits.array_map Outcome.fits_toJson report.checks
  refine Fits.object (List.forall_mem_append.mpr ⟨?_, ?_⟩)
  · exact List.forall_mem_cons.mpr ⟨Fits.string _, List.forall_mem_cons.mpr
      ⟨hchecks, List.forall_mem_singleton.mpr ((fits_stringArray _).mono (by decide))⟩⟩
  · cases report.metadata with
    | none => exact List.forall_mem_nil _
    | some metadata =>
      exact List.forall_mem_singleton.mpr (metadata.fits_toJson.mono (by decide))

lemma field?_metadata_eq (report : DocumentReport) : report.toJson.sorted.field? "metadata" =
    report.metadata.map fun metadata => metadata.toJson.sorted := by
  cases hmetadata : report.metadata with
  | none =>
    rw [toJson, hmetadata, Value.field?_sorted (by simp)]
    rfl
  | some metadata =>
    rw [toJson, hmetadata, Value.field?_sorted (by simp)]
    rfl

lemma field?_metadata {report : DocumentReport} {metadata : Metadata}
    (h : report.metadata = some metadata) :
    report.toJson.sorted.field? "metadata" = some metadata.toJson.sorted := by
  rw [field?_metadata_eq, h, Option.map_some]

end DocumentReport

lemma DocumentFailure.fits_toJson (failure : DocumentFailure) : failure.toJson.Fits 1 :=
  Fits.object (List.forall_mem_cons.mpr
    ⟨Fits.string _, List.forall_mem_singleton.mpr (Fits.string _)⟩)

namespace CorpusReport

lemma fits_toJson (report : CorpusReport) (time : String) : (report.toJson time).Fits 6 := by
  have hdocuments : (Value.array (report.documents.map DocumentReport.toJson)).Fits 5 :=
    Fits.array_map DocumentReport.fits_toJson report.documents
  have hfailures : (Value.array (report.failures.map DocumentFailure.toJson)).Fits 5 :=
    (Fits.array_map DocumentFailure.fits_toJson report.failures).mono (by decide)
  refine Fits.object (List.forall_mem_cons.mpr ⟨Fits.string _, List.forall_mem_cons.mpr
    ⟨Fits.string _, ?_⟩⟩)
  exact List.forall_mem_cons.mpr ⟨hdocuments, List.forall_mem_singleton.mpr hfailures⟩

lemma field?_documents (report : CorpusReport) (time : String) :
    (report.toJson time).sorted.field? "documents" =
      some (.array (report.documents.map fun document => document.toJson.sorted)) := by
  rw [toJson, Value.field?_sorted (by simp)]
  simp [List.lookup_cons]

end CorpusReport

end PuzzleGate
