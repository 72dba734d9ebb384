import PuzzleGate.Proofs.Outcome
import PuzzleGate.Proofs.Stages
import PuzzleGate.Proofs.Validator

/-!
# The record and the checks of the frontmatter

The record is built from the frontmatter as a whole and stops at the first problem, and the checks
look at it piece by piece. Both agree: there is a record exactly when all checks of the frontmatter
pass, and it says what the frontmatter says.
-/

namespace PuzzleGate

open Json

/-- The record says what the frontmatter says. A source that is null counts as absent. -/
structure Metadata.IsIn (metadata : Metadata) (frontmatter : Value) : Prop where
  author : frontmatter.field? "author" = some (.string metadata.author.text)
  contributors : frontmatter.field? "contributors" =
    some (.array (metadata.contributors.map fun address => .string address.text))
  adaptedFrom (source : String) : metadata.adaptedFrom = some source →
    frontmatter.field? "adapted_from" = some (.string source)
  unadapted : metadata.adaptedFrom = none →
    frontmatter.field? "adapted_from" = none ∨ frontmatter.field? "adapted_from" = some .null

lemma MetadataField.get?_eq_none {field : MetadataField} {frontmatter : Value} :
    field.get? frontmatter = none ↔
      frontmatter.field? field.key = none ∨ frontmatter.field? field.key = some .null := by
  unfold MetadataField.get?
  split
  · rename_i hnull
    simp [hnull]
  · rename_i hnull
    exact ⟨.inl, fun h => h.resolve_right hnull⟩

namespace Metadata

lemma addressOf_eq_ok {text : String} {address : Address} :
    addressOf text = .ok address ↔ text = address.text := by
  rw [← Address.ofString?_eq_some, addressOf]
  cases Address.ofString? text <;> simp

lemma contributorOf_eq_ok {item : Value} {address : Address} :
    contributorOf item = .ok address ↔ item = .string address.text := by
  cases item with
  | string text => rw [contributorOf, addressOf_eq_ok, Value.string.injEq]
  | null => simp [contributorOf]
  | bool b => simp [contributorOf]
  | number n => simp [contributorOf]
  | array items => simp [contributorOf]
  | object fields => simp [contributorOf]

lemma mapM_contributorOf_eq_ok {items : List Value} {addresses : List Address} :
    items.mapM contributorOf = .ok addresses ↔
      items = addresses.map fun address => .string address.text := by
  rw [mapM_eq_ok, ← List.forall₂_eq_eq_eq, List.forall₂_map_right_iff]
  simp only [contributorOf_eq_ok]

variable {frontmatter : Value}

lemma authorOf_eq_ok {address : Address} : authorOf frontmatter = .ok address ↔
    frontmatter.field? "author" = some (.string address.text) := by
  have hget : MetadataField.author.get? frontmatter = some (.string address.text) ↔
      frontmatter.field? "author" = some (.string address.text) := by
    rw [MetadataField.get?_eq_some]
    simp [MetadataField.key]
  rw [← hget, authorOf]
  split
  · rename_i h
    simp [h]
  · rename_i text h
    rw [h, addressOf_eq_ok]
    simp
  · rename_i other hother h
    rw [h]
    constructor
    · intro hok
      cases hok
    · intro hstring
      exact absurd (Option.some.inj hstring) (hother _)

lemma contributorsOf_eq_ok {addresses : List Address} :
    contributorsOf frontmatter = .ok addresses ↔ addresses ≠ [] ∧
      frontmatter.field? "contributors" =
        some (.array (addresses.map fun address => .string address.text)) := by
  have hget (items : List Value) :
      MetadataField.contributors.get? frontmatter = some (.array items) ↔
        frontmatter.field? "contributors" = some (.array items) := by
    rw [MetadataField.get?_eq_some]
    simp [MetadataField.key]
  rw [← hget, contributorsOf]
  split
  · rename_i h
    simp [h]
  · rename_i items h
    rw [h, Option.some.injEq, Value.array.injEq, bind_eq_ok]
    simp only [mapM_contributorOf_eq_ok, List.isEmpty_iff]
    constructor
    · rintro ⟨found, rfl, hfound⟩
      split at hfound
      · cases hfound
      · rename_i hne
        obtain rfl := Except.ok.inj hfound
        exact ⟨hne, rfl⟩
    · rintro ⟨hne, rfl⟩
      exact ⟨addresses, rfl, if_neg hne⟩
  · rename_i other hother h
    rw [h]
    constructor
    · intro hok
      cases hok
    · rintro ⟨-, harray⟩
      exact absurd (Option.some.inj harray) (hother _)

lemma adaptedFromOf_eq_ok {source : Option String} : adaptedFromOf frontmatter = .ok source ↔
    MetadataField.adaptedFrom.get? frontmatter = source.map .string := by
  rw [adaptedFromOf]
  split
  · rename_i h
    rw [h]
    cases source <;> simp
  · rename_i text h
    rw [h]
    cases source <;> simp
  · rename_i other hother h
    rw [h]
    constructor
    · intro hok
      cases hok
    · intro hsource
      cases source with
      | none => cases hsource
      | some text => exact absurd (Option.some.inj hsource) (hother text)

lemma get?_adaptedFrom {source : Option String} :
    MetadataField.adaptedFrom.get? frontmatter = source.map .string ↔
      (∀ text, source = some text → frontmatter.field? "adapted_from" = some (.string text)) ∧
      (source = none → frontmatter.field? "adapted_from" = none ∨
        frontmatter.field? "adapted_from" = some .null) := by
  cases source with
  | none =>
    rw [Option.map_none, MetadataField.get?_eq_none]
    simp [MetadataField.key]
  | some text =>
    rw [Option.map_some, MetadataField.get?_eq_some]
    simp [MetadataField.key]

/-- A record is built exactly when it says what the frontmatter says and has its own author among
its contributors. -/
theorem ofFrontmatter_eq_ok {metadata : Metadata} : ofFrontmatter frontmatter = .ok metadata ↔
    metadata.IsIn frontmatter ∧ metadata.includesAuthor = true := by
  unfold ofFrontmatter
  simp only [bind_eq_ok, authorOf_eq_ok, contributorsOf_eq_ok, adaptedFromOf_eq_ok,
    get?_adaptedFrom]
  constructor
  · rintro ⟨author, hauthor, contributors, ⟨-, hcontributors⟩, source, ⟨hsome, hnone⟩, h⟩
    split at h
    · rename_i hincludes
      obtain rfl := Except.ok.inj h
      exact ⟨⟨hauthor, hcontributors, hsome, hnone⟩, hincludes⟩
    · cases h
  · rintro ⟨hin, hincludes⟩
    have hne : metadata.contributors ≠ [] := by
      intro hnil
      rw [includesAuthor, hnil] at hincludes
      cases hincludes
    exact ⟨metadata.author, hin.author, metadata.contributors, ⟨hne, hin.contributors⟩,
      metadata.adaptedFrom, ⟨hin.adaptedFrom, hin.unadapted⟩, if_pos hincludes⟩

lemma exists_addresses {items : List Value}
    (h : ∀ item ∈ items, ∃ text, item = .string text ∧ IsAddress text) :
    ∃ addresses : List Address, items = addresses.map fun address => .string address.text := by
  induction items with
  | nil => exact ⟨[], rfl⟩
  | cons item items ih =>
    obtain ⟨⟨text, rfl, haddress⟩, hrest⟩ := List.forall_mem_cons.mp h
    obtain ⟨addresses, rfl⟩ := ih hrest
    exact ⟨⟨text, isAddress_iff.mpr haddress⟩ :: addresses, rfl⟩

lemma includesAuthor_iff {metadata : Metadata} :
    metadata.includesAuthor = true ↔ metadata.author ∈ metadata.contributors := by
  simp [includesAuthor]

lemma IsIn.fitsRecord {metadata : Metadata} (h : metadata.IsIn frontmatter)
    (hincludes : metadata.includesAuthor = true) :
    FitsRecord frontmatter metadata.author.text
      (metadata.contributors.map fun address => .string address.text) := by
  have hmem := includesAuthor_iff.mp hincludes
  refine ⟨h.author, isAddress_iff.mp metadata.author.valid, h.contributors, ?_, ?_,
    List.mem_map.mpr ⟨metadata.author, hmem, rfl⟩, fun value hvalue => ?_⟩
  · exact List.ne_nil_of_mem (List.mem_map_of_mem hmem)
  · intro item hitem
    obtain ⟨address, -, rfl⟩ := List.mem_map.mp hitem
    exact ⟨address.text, rfl, isAddress_iff.mp address.valid⟩
  · cases hsource : metadata.adaptedFrom with
    | none =>
      rcases h.unadapted hsource with hfield | hfield
      · rw [hvalue] at hfield
        cases hfield
      · rw [hvalue] at hfield
        exact .inl (Option.some.inj hfield)
    | some text =>
      have hfield := h.adaptedFrom text hsource
      rw [hvalue] at hfield
      exact .inr ⟨text, Option.some.inj hfield⟩

lemma exists_source {author : String} {items : List Value}
    (h : FitsRecord frontmatter author items) : ∃ source : Option String,
      (∀ text, source = some text → frontmatter.field? "adapted_from" = some (.string text)) ∧
      (source = none → frontmatter.field? "adapted_from" = none ∨
        frontmatter.field? "adapted_from" = some .null) := by
  cases hfield : frontmatter.field? "adapted_from" with
  | none => exact ⟨none, by simp, fun _ => .inl rfl⟩
  | some value =>
    rcases h.adapted value hfield with rfl | ⟨text, rfl⟩
    · exact ⟨none, by simp, fun _ => .inr rfl⟩
    · exact ⟨some text, by simp, by simp⟩

theorem exists_fitsRecord_iff : (∃ author items, FitsRecord frontmatter author items) ↔
    ∃ metadata, ofFrontmatter frontmatter = .ok metadata := by
  simp only [ofFrontmatter_eq_ok]
  constructor
  · rintro ⟨author, items, h⟩
    obtain ⟨contributors, rfl⟩ := exists_addresses h.addresses
    obtain ⟨source, hsome, hnone⟩ := exists_source h
    obtain ⟨address, haddress, htext⟩ := List.mem_map.mp h.included
    obtain rfl := Value.string.inj htext
    refine ⟨⟨address, contributors, source⟩, ⟨h.author_field, h.contributors_field, hsome, hnone⟩,
      includesAuthor_iff.mpr haddress⟩
  · rintro ⟨metadata, hin, hincludes⟩
    exact ⟨_, _, hin.fitsRecord hincludes⟩

end Metadata

lemma metadataOf?_eq_some {frontmatter : Option Value} {metadata : Metadata} :
    metadataOf? frontmatter = some metadata ↔
      ∃ value, frontmatter = some value ∧ Metadata.ofFrontmatter value = .ok metadata := by
  rw [metadataOf?, Option.bind_eq_some_iff]
  simp only [toOption_eq_some]

/-- The checks that look at the frontmatter. -/
def Check.ofFrontmatter : List Check :=
  [.metadataPresence, .authorFormat, .contributorsShape, .authorInclusion, .adaptedFromFormat]

lemma exists_metadata_iff {allowed : AllowList} {document : Document} :
    (∃ metadata, (validate allowed document).metadata = some metadata) ↔
      ∀ check ∈ Check.ofFrontmatter, (outcomeOf allowed document check).passed = true := by
  have hrecord : (∃ metadata, metadataOf? document.frontmatter = some metadata) ↔
      ∃ value author items, document.frontmatter = some value ∧ FitsRecord value author items := by
    simp only [metadataOf?_eq_some]
    constructor
    · rintro ⟨metadata, value, hvalue, hok⟩
      obtain ⟨author, items, h⟩ := Metadata.exists_fitsRecord_iff.mpr ⟨metadata, hok⟩
      exact ⟨value, author, items, hvalue, h⟩
    · rintro ⟨value, author, items, hvalue, h⟩
      obtain ⟨metadata, hok⟩ := Metadata.exists_fitsRecord_iff.mp ⟨author, items, h⟩
      exact ⟨metadata, value, hvalue, hok⟩
  have hchecks : (∀ check ∈ Check.ofFrontmatter,
      (outcomeOf allowed document check).passed = true) ↔
      ((metadataPresence document.frontmatter).passed = true ∧
        (authorFormat document.frontmatter).passed = true ∧
        (contributorsShape document.frontmatter).passed = true ∧
        (authorInclusion document.frontmatter).passed = true ∧
        (adaptedFromFormat document.frontmatter).passed = true) := by
    simp [Check.ofFrontmatter, outcomeOf]
  rw [hchecks, frontmatter_checks_passed]
  exact hrecord

/-- A report has a record exactly when the checks of the frontmatter pass. The record then says
what the frontmatter says, and the author is one of its contributors; a document that passes has
one. -/
theorem metadata_agrees_with_checks (allowed : AllowList) (document : Document) :
    ((∃ metadata, (validate allowed document).metadata = some metadata) ↔
      ∀ check ∈ Check.ofFrontmatter, ∃ outcome,
        (validate allowed document).outcome? check = some outcome ∧ outcome.passed = true) ∧
    (∀ metadata, (validate allowed document).metadata = some metadata →
      ∃ frontmatter, document.frontmatter = some frontmatter ∧ metadata.IsIn frontmatter ∧
        metadata.includesAuthor = true) ∧
    ((validate allowed document).passed = true →
      ∃ metadata, (validate allowed document).metadata = some metadata) := by
  refine ⟨?_, fun metadata hmetadata => ?_, fun hpassed => ?_⟩
  · rw [exists_metadata_iff]
    simp only [outcome?_validate, Option.some.injEq, exists_eq_left']
  · obtain ⟨frontmatter, hfrontmatter, hrecord⟩ := metadataOf?_eq_some.mp hmetadata
    exact ⟨frontmatter, hfrontmatter, Metadata.ofFrontmatter_eq_ok.mp hrecord⟩
  · exact exists_metadata_iff.mpr fun check _ => passed_validate.mp hpassed check

def firstAddress : String := "0x0000000000000000000000000000000000000001"

def secondAddress : String := "0x00000000000000000000000000000000000000aB"

/-- A document of two contributors, of whom the second is the author, with a source that is null. -/
def pairDocument : Document :=
  ⟨"a.mdx", "", ⟨some (.object [("author", .string secondAddress),
    ("contributors", .array [.string firstAddress, .string secondAddress]),
    ("adapted_from", .null)]), ""⟩⟩

theorem metadata_agrees_with_checks_pair :
    ∃ metadata, (validate AllowList.builtIn pairDocument).metadata = some metadata ∧
      metadata.contributors.map Address.text = [firstAddress, secondAddress] ∧
      metadata.adaptedFrom = none := by
  obtain ⟨hiff, hrecord, -⟩ := metadata_agrees_with_checks AllowList.builtIn pairDocument
  have hpassed : ∀ check ∈ Check.ofFrontmatter,
      (outcomeOf AllowList.builtIn pairDocument check).passed = true := by
    decide
  obtain ⟨metadata, hmetadata⟩ := hiff.mpr fun check hcheck =>
    ⟨_, outcome?_validate _ _ _, hpassed check hcheck⟩
  obtain ⟨frontmatter, hfrontmatter, hin, -⟩ := hrecord metadata hmetadata
  obtain rfl := Option.some.inj hfrontmatter
  refine ⟨metadata, hmetadata, ?_, ?_⟩
  · have hitems : [firstAddress, secondAddress].map Value.string =
        (metadata.contributors.map Address.text).map Value.string := by
      rw [List.map_map]
      exact Value.array.inj (Option.some.inj hin.contributors)
    exact (List.map_injective_iff.mpr (fun a b hab => Value.string.inj hab) hitems).symm
  · cases hsource : metadata.adaptedFrom with
    | none => rfl
    | some text => cases hin.adaptedFrom text hsource

end PuzzleGate
