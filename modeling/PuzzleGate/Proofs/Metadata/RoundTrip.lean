import PuzzleGate.Cli.Run
import PuzzleGate.Proofs.Metadata.Reading
import PuzzleGate.Proofs.Report.Json

/-!
# A written record comes back

A record that is written as JSON is read back as it was, whatever its source is and however many
contributors it has. It also comes back as frontmatter, if its author is among the contributors: the
record in a report can be put in front of a document again, and then passes the checks.
-/

namespace PuzzleGate

open Json Cli

/-- The record is the one that the frontmatter defines: it is built from it, and in every document
with this frontmatter the checks of the frontmatter pass and the report has the record. -/
structure Metadata.ComesFrom (metadata : Metadata) (frontmatter : Value) : Prop where
  built : Metadata.ofFrontmatter frontmatter = .ok metadata
  passes (allowed : AllowList) (document : Document) : document.frontmatter = some frontmatter →
    ∀ check ∈ Check.ofFrontmatter, (validate allowed document).Passes check
  reported (allowed : AllowList) (document : Document) : document.frontmatter = some frontmatter →
    (validate allowed document).metadata = some metadata

namespace Metadata

variable {metadata : Metadata} {frontmatter : Value}

lemma comesFrom_of_built (h : ofFrontmatter frontmatter = .ok metadata) :
    metadata.ComesFrom frontmatter := by
  have hreported (allowed : AllowList) (document : Document)
      (hdocument : document.frontmatter = some frontmatter) :
      (validate allowed document).metadata = some metadata :=
    metadataOf?_eq_some.mpr ⟨frontmatter, hdocument, h⟩
  refine ⟨h, fun allowed document hdocument check hcheck => ?_, hreported⟩
  rw [passes_validate]
  exact exists_metadata_iff.mp ⟨metadata, hreported allowed document hdocument⟩ check hcheck

theorem isIn_sorted (metadata : Metadata) : metadata.IsIn metadata.toJson.sorted := by
  have hfield (key : String) : metadata.toJson.sorted.field? key =
      (metadata.fields.lookup key).map Value.sorted := by
    rw [toJson_eq, Value.field?_sorted metadata.nodup_keys]
  have hcontributors : stringArray (metadata.contributors.map Address.text) =
      .array (metadata.contributors.map fun address => .string address.text) := by
    rw [stringArray, List.map_map]
    rfl
  refine ⟨?_, ?_, fun source hsource => ?_, fun hsource => .inl ?_⟩
  · rw [hfield]
    rfl
  · rw [hfield, ← hcontributors, ← sorted_stringArray]
    rfl
  · rw [hfield, fields, hsource]
    rfl
  · rw [hfield, fields, hsource]
    rfl

lemma ofTree_tree (metadata : Metadata) : ofTree metadata.toJson.tree = .ok metadata := by
  obtain ⟨members, closed, htext, hnodup, hvalue⟩ :=
    isObjectText_sorted (metadata.toJson_eq ▸ metadata.fits_toJson.isWhole) metadata.nodup_keys
  rw [← toJson_eq] at htext hvalue
  have htree : metadata.toJson.tree = .object members closed := by
    rw [readTree_text metadata.fits_toJson.isWhole] at htext
    exact (Prod.mk.inj htext).1
  rw [htree, ofTree_object_eq_ok hnodup hvalue]
  exact metadata.isIn_sorted

lemma comesFrom_sorted (h : metadata.includesAuthor = true) :
    metadata.ComesFrom metadata.toJson.sorted :=
  comesFrom_of_built (ofFrontmatter_eq_ok.mpr ⟨metadata.isIn_sorted, h⟩)

/-- A record is read back from its text on one line and over several ones. If its author is among
its contributors, as in every report, what is parsed from the text is frontmatter that defines the
record again, and so is what stands for it in a report that is printed as JSON. -/
theorem record_round_trip (metadata : Metadata) :
    ofJson metadata.toJson.text = .ok metadata ∧
    ofJson (jsonText metadata.toJson) = .ok metadata ∧
    (metadata.includesAuthor = true →
      (∃ value, parse? metadata.toJson.text = some value ∧ metadata.ComesFrom value) ∧
      ∀ (report : CorpusReport) (time : String) (place : Nat) (entry : DocumentReport),
        report.documents[place]? = some entry → entry.metadata = some metadata →
          ∃ value entries found, parse? (reportText .json report time) = some value ∧
            value.field? "documents" = some (.array entries) ∧
            entries[place]?.bind (Value.field? "metadata") = some found ∧
            metadata.ComesFrom found) ∧
    ∀ allowed document, (validate allowed document).metadata = some metadata →
      metadata.includesAuthor = true := by
  have hwhole := metadata.fits_toJson.isWhole
  refine ⟨decode_eq_ok.mpr ⟨_, readTree_text hwhole, metadata.ofTree_tree⟩,
    decode_eq_ok.mpr ⟨_, readTree_pretty hwhole, metadata.ofTree_tree⟩,
    fun hincludes => ⟨?_, fun report time place entry hplace hentry => ?_⟩,
    fun allowed document hreport => ?_⟩
  · exact ⟨_, parse?_text (metadata.fits_toJson.mono (by decide)), comesFrom_sorted hincludes⟩
  · refine ⟨_, _, _, parse?_pretty ((report.fits_toJson time).mono (by decide)),
      report.field?_documents time, ?_, comesFrom_sorted hincludes⟩
    rw [List.getElem?_map, hplace]
    exact DocumentReport.field?_metadata hentry
  · obtain ⟨value, -, hok⟩ := metadataOf?_eq_some.mp hreport
    exact (ofFrontmatter_eq_ok.mp hok).2

lemma isAddress_firstAddress : isAddress firstAddress = true := by decide

lemma isAddress_secondAddress : isAddress secondAddress = true := by decide

/-- A record with a source that needs escapes and with the same contributor twice. -/
def quotedMetadata : Metadata where
  author := ⟨secondAddress, isAddress_secondAddress⟩
  contributors := [⟨firstAddress, isAddress_firstAddress⟩,
    ⟨secondAddress, isAddress_secondAddress⟩, ⟨firstAddress, isAddress_firstAddress⟩]
  adaptedFrom := some "\"é\"\\\u0000\n😀"

def quotedReport : CorpusReport :=
  ⟨"/", [⟨"a.mdx", [], [], none⟩, ⟨"b.mdx", [], [], some quotedMetadata⟩], []⟩

theorem record_round_trip_quoted :
    ofJson quotedMetadata.toJson.text = .ok quotedMetadata ∧
    ∃ value entries found, parse? (reportText .json quotedReport "") = some value ∧
      value.field? "documents" = some (.array entries) ∧
      entries[1]?.bind (Value.field? "metadata") = some found ∧
      ∃ report : DocumentReport,
        report = validate AllowList.builtIn ⟨"c.mdx", "", ⟨some found, ""⟩⟩ ∧
          report.metadata = some quotedMetadata ∧ report.Passes .authorInclusion := by
  obtain ⟨hread, -, hback, -⟩ := record_round_trip quotedMetadata
  obtain ⟨value, entries, found, hvalue, hentries, hfound, hcomes⟩ :=
    (hback (by decide)).2 quotedReport "" 1 _ rfl rfl
  exact ⟨hread, value, entries, found, hvalue, hentries, hfound, _, rfl,
    hcomes.reported _ _ rfl, hcomes.passes _ _ rfl _ (by decide)⟩

end Metadata

end PuzzleGate
