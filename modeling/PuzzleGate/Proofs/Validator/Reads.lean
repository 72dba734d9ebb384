import PuzzleGate.Proofs.Outcome
import PuzzleGate.Proofs.Validator

/-!
# What a report depends on

A report answers each check once, and an answer passes exactly when it has no details. Of the
frontmatter the report knows nothing but the values of the three fields: other keys, a field that is
null instead of absent, and even frontmatter that is no object at all leave no trace in it.
-/

namespace PuzzleGate

open Json

/-- Two frontmatters give each field of the record the same value, or both give it none. -/
def ReadAlike (first second : Value) : Prop :=
  ∀ field : MetadataField, field.get? first = field.get? second

variable {allowed : AllowList} {document other : Document} {first second : Value}

lemma passed_iff_of_mem_checks {outcome : Outcome}
    (h : outcome ∈ (validate allowed document).checks) :
    outcome.passed = true ↔ outcome.details = [] := by
  rw [checks_validate] at h
  obtain ⟨check, -, rfl⟩ := List.mem_map.mp h
  obtain ⟨details, hdetails⟩ := exists_details allowed document check
  rw [hdetails, Outcome.passed_ofDetails, Outcome.details_ofDetails]

lemma map_check_checks (allowed : AllowList) (document : Document) :
    (validate allowed document).checks.map Outcome.check = Check.all := by
  have hcheck : Outcome.check ∘ outcomeOf allowed document = id :=
    funext (check_outcomeOf allowed document)
  rw [checks_validate, List.map_map, hcheck, List.map_id]

lemma Check.filter_all (check : Check) : Check.all.filter (· = check) = [check] := by
  cases check <;> rfl

lemma filter_checks (allowed : AllowList) (document : Document) (check : Check) :
    (validate allowed document).checks.filter (fun outcome => outcome.check = check) =
      [outcomeOf allowed document check] := by
  have hcheck : (fun outcome : Outcome => decide (outcome.check = check)) ∘
      outcomeOf allowed document = (· = check) := by
    funext answered
    rw [Function.comp_apply, check_outcomeOf]
  rw [checks_validate, List.filter_map, hcheck, Check.filter_all, List.map_singleton]

lemma metadataPresence_of_authorInclusion {frontmatter : Option Value}
    (h : (authorInclusion frontmatter).passed = true) :
    (metadataPresence frontmatter).passed = true := by
  obtain ⟨author, items, hauthor, hitems, -⟩ := authorInclusion_passed.mp h
  exact metadataPresence_passed.mpr ⟨author, .array items, hauthor, hitems⟩

lemma metadataPresence_of_shapes {frontmatter : Option Value}
    (hformat : (authorFormat frontmatter).passed = true)
    (hshape : (contributorsShape frontmatter).passed = true) :
    (metadataPresence frontmatter).passed = true := by
  obtain ⟨author, hauthor, -⟩ := authorFormat_passed.mp hformat
  obtain ⟨items, hitems, -⟩ := contributorsShape_passed.mp hshape
  exact metadataPresence_passed.mpr ⟨.string author, .array items, hauthor, hitems⟩

namespace ReadAlike

lemma fieldOf_eq (h : ReadAlike first second) (field : MetadataField) :
    fieldOf (some first) field = fieldOf (some second) field :=
  h field

lemma metadataPresence_eq (h : ReadAlike first second) :
    metadataPresence (some first) = metadataPresence (some second) := by
  have hmissing : (fun field : MetadataField => (field.get? first).isNone) =
      fun field => (field.get? second).isNone :=
    funext fun field => congrArg Option.isNone (h field)
  rw [metadataPresence, metadataPresence, hmissing]

lemma outcomeOf_eq (h : ReadAlike first second) (hfirst : document.frontmatter = some first)
    (hsecond : other.frontmatter = some second) (hraw : other.raw = document.raw)
    (hsource : other.source = document.source) (check : Check) :
    outcomeOf allowed other check = outcomeOf allowed document check := by
  cases check with
  | metadataPresence =>
    rw [outcomeOf, outcomeOf, hfirst, hsecond, h.metadataPresence_eq]
  | authorFormat =>
    rw [outcomeOf, outcomeOf, hfirst, hsecond, authorFormat, authorFormat, h.fieldOf_eq]
  | contributorsShape =>
    rw [outcomeOf, outcomeOf, hfirst, hsecond, contributorsShape, contributorsShape, h.fieldOf_eq]
  | authorInclusion =>
    rw [outcomeOf, outcomeOf, hfirst, hsecond, authorInclusion, authorInclusion, h.fieldOf_eq,
      h.fieldOf_eq]
  | adaptedFromFormat =>
    rw [outcomeOf, outcomeOf, hfirst, hsecond, adaptedFromFormat, adaptedFromFormat, h.fieldOf_eq]
  | prohibitedRawContent => rw [outcomeOf, outcomeOf, hraw]
  | elementAllowList => rw [outcomeOf, outcomeOf, hsource]

lemma ofFrontmatter_eq (h : ReadAlike first second) :
    Metadata.ofFrontmatter first = Metadata.ofFrontmatter second := by
  have hauthor : Metadata.authorOf first = Metadata.authorOf second := by
    rw [Metadata.authorOf, Metadata.authorOf, h .author]
  have hcontributors : Metadata.contributorsOf first = Metadata.contributorsOf second := by
    rw [Metadata.contributorsOf, Metadata.contributorsOf, h .contributors]
  have hadapted : Metadata.adaptedFromOf first = Metadata.adaptedFromOf second := by
    rw [Metadata.adaptedFromOf, Metadata.adaptedFromOf, h .adaptedFrom]
  rw [Metadata.ofFrontmatter, Metadata.ofFrontmatter, hauthor, hcontributors, hadapted]

/-- Reports differ in nothing but the document that they are about. -/
lemma validate_eq (h : ReadAlike first second) (hfirst : document.frontmatter = some first)
    (hsecond : other.frontmatter = some second) (hraw : other.raw = document.raw)
    (hsource : other.source = document.source) :
    validate allowed other = { validate allowed document with document := other.id } := by
  have hchecks : (validate allowed other).checks = (validate allowed document).checks := by
    rw [checks_validate, checks_validate]
    exact List.map_congr_left fun check _ => h.outcomeOf_eq hfirst hsecond hraw hsource check
  have helements : (validate allowed other).elements = (validate allowed document).elements :=
    congrArg Call.elements hsource
  have hmetadata : (validate allowed other).metadata = (validate allowed document).metadata := by
    change metadataOf? other.frontmatter = metadataOf? document.frontmatter
    rw [hfirst, hsecond, metadataOf?, metadataOf?, Option.bind_some, Option.bind_some,
      h.ofFrontmatter_eq]
  calc validate allowed other
      = ⟨other.id, (validate allowed other).checks, (validate allowed other).elements,
          (validate allowed other).metadata⟩ := rfl
    _ = { validate allowed document with document := other.id } := by
        rw [hchecks, helements, hmetadata]

end ReadAlike

/-- A report answers every check once and in order, each answer passes exactly when it has no
details, both required fields are present when the author is included or when author and
contributors have their shape, and documents with the same texts whose frontmatters read alike have
the same report but for their identifier. -/
theorem report_form (allowed : AllowList) (document : Document) :
    let report := validate allowed document
    report.checks.map Outcome.check = Check.all ∧
    (∀ outcome ∈ report.checks, outcome.passed = true ↔ outcome.details = []) ∧
    (∀ check, ∃ outcome, report.outcome? check = some outcome ∧
      report.checks.filter (fun answer => answer.check = check) = [outcome]) ∧
    (report.Passes .authorInclusion → report.Passes .metadataPresence) ∧
    (report.Passes .authorFormat → report.Passes .contributorsShape →
      report.Passes .metadataPresence) ∧
    ∀ (other : Document) (first second : Value), document.frontmatter = some first →
      other.frontmatter = some second → ReadAlike first second → other.raw = document.raw →
      other.source = document.source →
      validate allowed other = { report with document := other.id } := by
  refine ⟨map_check_checks allowed document, fun outcome => passed_iff_of_mem_checks,
    fun check => ?_, fun h => ?_, fun hformat hshape => ?_, ?_⟩
  · exact ⟨_, outcome?_validate allowed document check, filter_checks allowed document check⟩
  · exact passes_validate.mpr (metadataPresence_of_authorInclusion (passes_validate.mp h))
  · exact passes_validate.mpr (metadataPresence_of_shapes (passes_validate.mp hformat)
      (passes_validate.mp hshape))
  · intro other first second hfirst hsecond halike hraw hsource
    exact halike.validate_eq hfirst hsecond hraw hsource

/-- The author is a number among the contributors, the source is null, and there is a key that is no
field. -/
def notedDocument : Document :=
  ⟨"a.mdx", "", ⟨some (.object [("adapted_from", .null),
    ("author", .number (.natural 1 (by decide))),
    ("contributors", .array [.null, .number (.natural 1 (by decide))]),
    ("notes", .bool true)]), ""⟩⟩

/-- The same author and contributors, without a source and with another key. -/
def taggedDocument : Document :=
  ⟨"b.mdx", "", ⟨some (.object [("author", .number (.natural 1 (by decide))),
    ("contributors", .array [.null, .number (.natural 1 (by decide))]), ("tags", .array [])]), ""⟩⟩

theorem report_form_noted :
    (validate .builtIn notedDocument).Passes .metadataPresence ∧
    validate .builtIn taggedDocument =
      { validate .builtIn notedDocument with document := "b.mdx" } := by
  obtain ⟨-, -, -, hincluded, -, halike⟩ := report_form .builtIn notedDocument
  refine ⟨hincluded rfl, halike taggedDocument _ _ rfl rfl (fun field => ?_) rfl rfl⟩
  cases field <;> rfl

end PuzzleGate
