import PuzzleGate.Proofs.Address
import PuzzleGate.Proofs.Elements

/-!
# What the checks accept

Each check passes on exactly the documents that its name says. Together the checks of the
frontmatter say that it fits the metadata record, and the checks of the two texts say that the raw
text has no call at all and the compiled one only calls of allowed elements.
-/

namespace PuzzleGate

open Json Call

/-- The frontmatter gives the author's address, a list of contributors' addresses with the author
among them, and possibly a source as text. -/
structure FitsRecord (frontmatter : Value) (author : String) (items : List Value) : Prop where
  author_field : frontmatter.field? "author" = some (.string author)
  author_address : IsAddress author
  contributors_field : frontmatter.field? "contributors" = some (.array items)
  nonempty : items ≠ []
  addresses : ∀ item ∈ items, ∃ text, item = .string text ∧ IsAddress text
  included : .string author ∈ items
  adapted : ∀ value, frontmatter.field? "adapted_from" = some value →
    value = .null ∨ ∃ text, value = .string text

lemma MetadataField.get?_eq_some {field : MetadataField} {frontmatter value : Value} :
    field.get? frontmatter = some value ↔
      frontmatter.field? field.key = some value ∧ value ≠ .null := by
  unfold MetadataField.get?
  constructor
  · intro h
    split at h
    · cases h
    · rename_i hnull
      refine ⟨h, fun hvalue => ?_⟩
      subst hvalue
      exact hnull h
  · rintro ⟨h, hnull⟩
    split
    · rename_i hfound
      rw [h] at hfound
      exact absurd (Option.some.inj hfound) hnull
    · exact h

lemma fieldOf_eq_some {frontmatter : Option Value} {field : MetadataField} {value : Value} :
    fieldOf frontmatter field = some value ↔ ∃ found, frontmatter = some found ∧
      found.field? field.key = some value ∧ value ≠ .null := by
  rw [fieldOf, Option.bind_eq_some_iff]
  simp only [MetadataField.get?_eq_some]

lemma isAddressValue_iff {value : Value} :
    isAddressValue value = true ↔ ∃ text, value = .string text ∧ IsAddress text := by
  unfold isAddressValue
  split
  · simp [isAddress_iff]
  · rename_i hstring
    constructor
    · intro h
      cases h
    · rintro ⟨text, rfl, -⟩
      exact absurd rfl (hstring text)

section Checks

variable {frontmatter : Option Value}

lemma metadataPresence_passed : (metadataPresence frontmatter).passed = true ↔
    ∃ author contributors, fieldOf frontmatter .author = some author ∧
      fieldOf frontmatter .contributors = some contributors := by
  cases frontmatter with
  | none => simp [metadataPresence, Outcome.fail, fieldOf]
  | some value =>
    rw [metadataPresence, Outcome.passed_ofDetails, List.map_eq_nil_iff, List.filter_eq_nil_iff]
    simp [MetadataField.required, fieldOf, Option.ne_none_iff_exists']

lemma authorFormat_passed : (authorFormat frontmatter).passed = true ↔
    ∃ text, fieldOf frontmatter .author = some (.string text) ∧ IsAddress text := by
  rw [authorFormat, Outcome.passed_ofDetails]
  split
  · rename_i h
    simp [h]
  · rename_i text h
    simp [h, isAddress_iff]
  · rename_i other hother h
    rw [h]
    constructor
    · intro hdetails
      simp at hdetails
    · rintro ⟨text, hstring, -⟩
      exact absurd (Option.some.inj hstring) (hother text)

lemma contributorsShape_passed : (contributorsShape frontmatter).passed = true ↔
    ∃ items, fieldOf frontmatter .contributors = some (.array items) ∧ items ≠ [] ∧
      ∀ item ∈ items, ∃ text, item = .string text ∧ IsAddress text := by
  rw [contributorsShape, Outcome.passed_ofDetails]
  split
  · rename_i h
    simp [h]
  · rename_i h
    simp [h]
  · rename_i items hitems h
    have hne : items ≠ [] := by
      rintro rfl
      exact hitems rfl
    simp [h, hne, List.filter_eq_nil_iff, isAddressValue_iff]
  · rename_i other hnil hother h
    rw [h]
    constructor
    · intro hdetails
      simp at hdetails
    · rintro ⟨items, harray, -⟩
      exact absurd (Option.some.inj harray) (hother items)

lemma authorInclusion_passed : (authorInclusion frontmatter).passed = true ↔
    ∃ author items, fieldOf frontmatter .author = some author ∧
      fieldOf frontmatter .contributors = some (.array items) ∧
      ∃ item ∈ items, item.same author = true := by
  rw [authorInclusion, Outcome.passed_ofDetails]
  split
  · rename_i h
    simp [h]
  · rename_i author h hnone
    simp [hnone]
  · rename_i author items h harray
    simp [h, harray]
  · rename_i author other hother h hfound
    rw [hfound]
    constructor
    · intro hdetails
      simp at hdetails
    · rintro ⟨_, items, -, harray, -⟩
      exact absurd (Option.some.inj harray) (hother items)

lemma adaptedFromFormat_passed : (adaptedFromFormat frontmatter).passed = true ↔
    ∀ value, fieldOf frontmatter .adaptedFrom = some value → ∃ text, value = .string text := by
  rw [adaptedFromFormat, Outcome.passed_ofDetails]
  split
  · rename_i h
    simp [h]
  · rename_i text h
    simp [h]
  · rename_i other hother h
    rw [h]
    constructor
    · intro hdetails
      simp at hdetails
    · intro hstring
      obtain ⟨text, rfl⟩ := hstring other rfl
      exact absurd rfl (hother text)

end Checks

lemma prohibitedRawContent_passed {raw : String} : (prohibitedRawContent raw).passed = true ↔
    ∀ start stop, ¬ CallAt raw start stop := by
  rw [prohibitedRawContent, Outcome.passed_ofDetails, ← scan_eq_nil_iff,
    List.eq_nil_iff_forall_not_mem]
  simp only [mem_distinct]
  rw [← List.eq_nil_iff_forall_not_mem, List.map_eq_nil_iff]

lemma same_string {value : Value} {text : String} :
    value.same (.string text) = true ↔ value = .string text := by
  cases value <;> simp [Value.same]

/-- The checks of the frontmatter pass when it fits the record. -/
theorem frontmatter_checks_passed {frontmatter : Option Value} :
    ((metadataPresence frontmatter).passed = true ∧ (authorFormat frontmatter).passed = true ∧
      (contributorsShape frontmatter).passed = true ∧
      (authorInclusion frontmatter).passed = true ∧
      (adaptedFromFormat frontmatter).passed = true) ↔
    ∃ value author items, frontmatter = some value ∧ FitsRecord value author items := by
  rw [metadataPresence_passed, authorFormat_passed, contributorsShape_passed,
    authorInclusion_passed, adaptedFromFormat_passed]
  constructor
  · rintro ⟨-, ⟨author, hauthor, haddress⟩, ⟨items, hitems, hne, haddresses⟩,
      ⟨author', items', hauthor', hitems', item, hitem, hsame⟩, hadapted⟩
    rw [hauthor] at hauthor'
    obtain rfl := Option.some.inj hauthor'
    rw [hitems] at hitems'
    obtain rfl := Value.array.inj (Option.some.inj hitems')
    obtain rfl := same_string.mp hsame
    obtain ⟨value, rfl, hauthor, -⟩ := fieldOf_eq_some.mp hauthor
    obtain ⟨_, hvalue, hitems, -⟩ := fieldOf_eq_some.mp hitems
    obtain rfl := Option.some.inj hvalue
    refine ⟨value, author, items, rfl, hauthor, haddress, hitems, hne, haddresses, hitem, ?_⟩
    intro source hsource
    by_cases hnull : source = .null
    · exact .inl hnull
    · exact .inr (hadapted source (fieldOf_eq_some.mpr ⟨value, rfl, hsource, hnull⟩))
  · rintro ⟨value, author, items, rfl, h⟩
    have hauthor : fieldOf (some value) .author = some (.string author) :=
      fieldOf_eq_some.mpr ⟨value, rfl, h.author_field, by simp⟩
    have hitems : fieldOf (some value) .contributors = some (.array items) :=
      fieldOf_eq_some.mpr ⟨value, rfl, h.contributors_field, by simp⟩
    refine ⟨⟨_, _, hauthor, hitems⟩, ⟨author, hauthor, h.author_address⟩,
      ⟨items, hitems, h.nonempty, h.addresses⟩,
      ⟨_, items, hauthor, hitems, _, h.included, same_string.mpr rfl⟩, fun source hsource => ?_⟩
    obtain ⟨_, hvalue, hfield, hnull⟩ := fieldOf_eq_some.mp hsource
    obtain rfl := Option.some.inj hvalue
    exact (h.adapted source hfield).resolve_left hnull

/-- A document passes when its frontmatter fits the record, its raw text has no call, and every
call in its compiled text renders an allowed element. -/
theorem validate_passed {allowed : AllowList} {document : Document} :
    (validate allowed document).passed = true ↔
      (∃ value author items, document.frontmatter = some value ∧ FitsRecord value author items) ∧
      (∀ start stop, ¬ CallAt document.raw start stop) ∧
      ∀ m ∈ scan document.source, m.name ∈ allowed.names := by
  rw [← frontmatter_checks_passed, ← prohibitedRawContent_passed,
    ← elementAllowList_passed_iff_scan]
  simp [DocumentReport.passed, validate, and_assoc]

end PuzzleGate
