import PuzzleGate.Proofs.Metadata

/-!
# The first fault and the report

Building the record from frontmatter stops at the first fault, and the checks report all of them.
The fault that is met first is among those that are reported, in the same words up to the way in
which a value of the wrong kind is introduced, and all checks that come before it pass.
-/

namespace PuzzleGate

open Json Metadata

/-- The check reports the fault with these details. An address that is not one is the only fault
which two checks report; of several contributors the first is the one that is met. -/
inductive MetadataFault.IsReported : MetadataFault → Check → List String → Prop where
  | noAuthor : IsReported (.missing .author) .authorFormat ["missing field: author"]
  | badAuthor (text : String) : IsReported (.badAddress text) .authorFormat [text]
  | otherAuthor (found : Value) :
      IsReported (.badField .author (.notString found)) .authorFormat
        ["not a string: " ++ found.text]
  | noContributors :
      IsReported (.missing .contributors) .contributorsShape ["missing field: contributors"]
  | badContributor (text : String) (others : List String) :
      IsReported (.badAddress text) .contributorsShape (text :: others)
  | otherContributors (found : Value) :
      IsReported (.badField .contributors (.notSequence found)) .contributorsShape
        ["not a sequence: " ++ found.text]
  | emptyContributors :
      IsReported (.badField .contributors .empty) .contributorsShape ["contributors is empty"]
  | otherSource (found : Value) :
      IsReported (.badField .adaptedFrom (.notString found)) .adaptedFromFormat
        ["not a string: " ++ found.text]
  | leftOut (author : Address) :
      IsReported (.badField .contributors (.omitsAuthor author)) .authorInclusion
        [author.text ++ " not in contributors"]

/-- The checks in the order in which the record is built. -/
def Check.buildOrder : List Check :=
  [.authorFormat, .contributorsShape, .adaptedFromFormat, .authorInclusion]

namespace Metadata

variable {frontmatter : Value} {fault : MetadataFault}

/-- Where the building of the record stops: all stages before have given something. -/
inductive StopsAt (frontmatter : Value) : Check → MetadataFault → Prop where
  | author {fault : MetadataFault} (h : authorOf frontmatter = .error fault) :
      StopsAt frontmatter .authorFormat fault
  | contributors {author : Address} {fault : MetadataFault}
      (hauthor : authorOf frontmatter = .ok author)
      (h : contributorsOf frontmatter = .error fault) :
      StopsAt frontmatter .contributorsShape fault
  | adaptedFrom {author : Address} {contributors : List Address} {fault : MetadataFault}
      (hauthor : authorOf frontmatter = .ok author)
      (hcontributors : contributorsOf frontmatter = .ok contributors)
      (h : adaptedFromOf frontmatter = .error fault) :
      StopsAt frontmatter .adaptedFromFormat fault
  | inclusion {author : Address} {contributors : List Address} {source : Option String}
      (hauthor : authorOf frontmatter = .ok author)
      (hcontributors : contributorsOf frontmatter = .ok contributors)
      (hadapted : adaptedFromOf frontmatter = .ok source) (h : author ∉ contributors) :
      StopsAt frontmatter .authorInclusion (.badField .contributors (.omitsAuthor author))

lemma exists_stopsAt (h : ofFrontmatter frontmatter = .error fault) :
    ∃ check, StopsAt frontmatter check fault := by
  unfold ofFrontmatter at h
  rcases bind_eq_error.mp h with hauthor | ⟨author, hauthor, h⟩
  · exact ⟨_, .author hauthor⟩
  rcases bind_eq_error.mp h with hcontributors | ⟨contributors, hcontributors, h⟩
  · exact ⟨_, .contributors hauthor hcontributors⟩
  rcases bind_eq_error.mp h with hadapted | ⟨source, hadapted, h⟩
  · exact ⟨_, .adaptedFrom hauthor hcontributors hadapted⟩
  dsimp only at h
  split at h
  · cases h
  · rename_i hincludes
    obtain rfl := Except.error.inj h
    rw [includesAuthor_iff] at hincludes
    exact ⟨_, .inclusion hauthor hcontributors hadapted hincludes⟩

lemma addressOf_eq_error {text : String} (h : addressOf text = .error fault) :
    fault = .badAddress text ∧ isAddress text = false := by
  unfold addressOf Address.ofString? at h
  split at h
  · cases h
  · rename_i hnone
    refine ⟨(Except.error.inj h).symm, ?_⟩
    simpa using hnone

lemma exists_authorFormat_eq_fail (h : authorOf frontmatter = .error fault) :
    ∃ details, authorFormat (some frontmatter) = .fail .authorFormat details ∧
      fault.IsReported .authorFormat details := by
  rw [authorFormat, fieldOf, Option.bind_some]
  cases hfield : MetadataField.author.get? frontmatter with
  | none =>
    rw [authorOf, hfield] at h
    obtain rfl := Except.error.inj h
    exact ⟨_, rfl, .noAuthor⟩
  | some value =>
    rw [authorOf, hfield] at h
    cases value with
    | string text =>
      obtain ⟨rfl, haddress⟩ := addressOf_eq_error h
      simp only [haddress]
      exact ⟨_, rfl, .badAuthor text⟩
    | _ =>
      obtain rfl := Except.error.inj h
      exact ⟨_, rfl, .otherAuthor _⟩

lemma fieldOf_author {author : Address} (h : authorOf frontmatter = .ok author) :
    fieldOf (some frontmatter) .author = some (.string author.text) :=
  fieldOf_eq_some.mpr ⟨frontmatter, rfl, authorOf_eq_ok.mp h, by simp⟩

lemma authorFormat_eq_pass {author : Address} (h : authorOf frontmatter = .ok author) :
    authorFormat (some frontmatter) = .pass .authorFormat :=
  Outcome.eq_pass_of_passed (authorFormat_passed.mpr
    ⟨author.text, fieldOf_author h, isAddress_iff.mp author.valid⟩)

lemma contributorOf_eq_error {item : Value} (h : contributorOf item = .error fault) :
    fault = .badAddress (describe item) ∧ isAddressValue item = false := by
  cases item with
  | string text => exact addressOf_eq_error h
  | null => exact ⟨(Except.error.inj h).symm, rfl⟩
  | bool b => exact ⟨(Except.error.inj h).symm, rfl⟩
  | number n => exact ⟨(Except.error.inj h).symm, rfl⟩
  | array items => exact ⟨(Except.error.inj h).symm, rfl⟩
  | object fields => exact ⟨(Except.error.inj h).symm, rfl⟩

lemma exists_badContributor {items : List Value} (h : items.mapM contributorOf = .error fault) :
    ∃ text others, fault = .badAddress text ∧
      (items.filter fun item => !isAddressValue item).map describe = text :: others := by
  induction items with
  | nil => cases h
  | cons item items ih =>
    rw [List.mapM_cons] at h
    rcases bind_eq_error.mp h with hitem | ⟨address, hitem, h⟩
    · obtain ⟨rfl, haddress⟩ := contributorOf_eq_error hitem
      refine ⟨describe item, (items.filter fun item => !isAddressValue item).map describe, rfl, ?_⟩
      rw [List.filter_cons_of_pos (by simp [haddress]), List.map_cons]
    · have haddress : isAddressValue item = true := by
        rw [contributorOf_eq_ok.mp hitem]
        exact address.valid
      rw [List.filter_cons_of_neg (by simp [haddress])]
      rcases bind_eq_error.mp h with hitems | ⟨addresses, -, hpure⟩
      · exact ih hitems
      · cases hpure

lemma exists_contributorsShape_eq_fail (h : contributorsOf frontmatter = .error fault) :
    ∃ details, contributorsShape (some frontmatter) = .fail .contributorsShape details ∧
      fault.IsReported .contributorsShape details := by
  rw [contributorsShape, fieldOf, Option.bind_some]
  cases hfield : MetadataField.contributors.get? frontmatter with
  | none =>
    rw [contributorsOf, hfield] at h
    obtain rfl := Except.error.inj h
    exact ⟨_, rfl, .noContributors⟩
  | some value =>
    rw [contributorsOf, hfield] at h
    cases value with
    | array items =>
      rcases bind_eq_error.mp h with hbad | ⟨addresses, hitems, h⟩
      · obtain ⟨text, others, rfl, hdetails⟩ := exists_badContributor hbad
        cases items with
        | nil => cases hbad
        | cons item items =>
          simp only [hdetails]
          exact ⟨_, rfl, .badContributor text others⟩
      · split at h
        · rename_i hempty
          obtain rfl := Except.error.inj h
          rw [mapM_contributorOf_eq_ok, List.isEmpty_iff.mp hempty, List.map_nil] at hitems
          subst hitems
          exact ⟨_, rfl, .emptyContributors⟩
        · cases h
    | _ =>
      obtain rfl := Except.error.inj h
      exact ⟨_, rfl, .otherContributors _⟩

lemma fieldOf_contributors {contributors : List Address}
    (h : contributorsOf frontmatter = .ok contributors) :
    fieldOf (some frontmatter) .contributors =
      some (.array (contributors.map fun address => .string address.text)) :=
  fieldOf_eq_some.mpr ⟨frontmatter, rfl, (contributorsOf_eq_ok.mp h).2, by simp⟩

lemma contributorsShape_eq_pass {contributors : List Address}
    (h : contributorsOf frontmatter = .ok contributors) :
    contributorsShape (some frontmatter) = .pass .contributorsShape := by
  refine Outcome.eq_pass_of_passed
    (contributorsShape_passed.mpr ⟨_, fieldOf_contributors h, ?_, fun item hitem => ?_⟩)
  · simpa using (contributorsOf_eq_ok.mp h).1
  · obtain ⟨address, -, rfl⟩ := List.mem_map.mp hitem
    exact ⟨address.text, rfl, isAddress_iff.mp address.valid⟩

lemma exists_adaptedFromFormat_eq_fail (h : adaptedFromOf frontmatter = .error fault) :
    ∃ details, adaptedFromFormat (some frontmatter) = .fail .adaptedFromFormat details ∧
      fault.IsReported .adaptedFromFormat details := by
  rw [adaptedFromFormat, fieldOf, Option.bind_some]
  cases hfield : MetadataField.adaptedFrom.get? frontmatter with
  | none =>
    rw [adaptedFromOf, hfield] at h
    cases h
  | some value =>
    rw [adaptedFromOf, hfield] at h
    cases value with
    | string text => cases h
    | _ =>
      obtain rfl := Except.error.inj h
      exact ⟨_, rfl, .otherSource _⟩

lemma adaptedFromFormat_eq_pass {source : Option String}
    (h : adaptedFromOf frontmatter = .ok source) :
    adaptedFromFormat (some frontmatter) = .pass .adaptedFromFormat := by
  refine Outcome.eq_pass_of_passed (adaptedFromFormat_passed.mpr fun value hvalue => ?_)
  rw [fieldOf, Option.bind_some, adaptedFromOf_eq_ok.mp h] at hvalue
  obtain ⟨text, -, rfl⟩ := Option.map_eq_some_iff.mp hvalue
  exact ⟨text, rfl⟩

lemma authorInclusion_eq_fail {author : Address} {contributors : List Address}
    (hauthor : authorOf frontmatter = .ok author)
    (hcontributors : contributorsOf frontmatter = .ok contributors) (h : author ∉ contributors) :
    authorInclusion (some frontmatter) =
      .fail .authorInclusion [author.text ++ " not in contributors"] := by
  have hnone : ((contributors.map fun address => Value.string address.text).any fun item =>
      item.same (.string author.text)) = false := by
    rw [List.any_eq_false]
    intro item hitem hsame
    obtain ⟨address, haddress, rfl⟩ := List.mem_map.mp hitem
    obtain ⟨text, valid⟩ := author
    obtain ⟨text', valid'⟩ := address
    obtain rfl := Value.string.inj (same_string.mp hsame)
    exact h haddress
  rw [authorInclusion, fieldOf_author hauthor, fieldOf_contributors hcontributors]
  simp only [hnone]
  rfl

lemma missing_of_ofFrontmatter {field : MetadataField}
    (h : ofFrontmatter frontmatter = .error (.missing field)) :
    field ∈ MetadataField.required ∧ field.get? frontmatter = none := by
  obtain ⟨check, hstops⟩ := exists_stopsAt h
  cases hstops with
  | author h =>
    unfold authorOf at h
    split at h
    · rename_i hfield
      obtain rfl := MetadataFault.missing.inj (Except.error.inj h)
      exact ⟨by decide, hfield⟩
    · cases (addressOf_eq_error h).1
    · cases h
  | contributors hauthor h =>
    unfold contributorsOf at h
    split at h
    · rename_i hfield
      obtain rfl := MetadataFault.missing.inj (Except.error.inj h)
      exact ⟨by decide, hfield⟩
    · rcases bind_eq_error.mp h with hbad | ⟨addresses, -, h⟩
      · obtain ⟨text, others, hfault, -⟩ := exists_badContributor hbad
        cases hfault
      · split at h <;> cases h
    · cases h
  | adaptedFrom hauthor hcontributors h =>
    unfold adaptedFromOf at h
    split at h <;> cases h

lemma exists_metadataPresence_eq_fail {field : MetadataField}
    (hfield : field ∈ MetadataField.required) (h : field.get? frontmatter = none) :
    ∃ details, metadataPresence (some frontmatter) = .fail .metadataPresence details ∧
      missingDetail field ∈ details := by
  have hmem : missingDetail field ∈ (MetadataField.required.filter fun field =>
      (field.get? frontmatter).isNone).map missingDetail := by
    refine List.mem_map_of_mem (List.mem_filter.mpr ⟨hfield, ?_⟩)
    rw [h]
    rfl
  refine ⟨_, ?_, hmem⟩
  rw [metadataPresence, Outcome.ofDetails, if_neg]
  rw [List.isEmpty_iff]
  exact List.ne_nil_of_mem hmem

lemma metadataPresence_eq_pass {author : Address} {contributors : List Address}
    (hauthor : authorOf frontmatter = .ok author)
    (hcontributors : contributorsOf frontmatter = .ok contributors) :
    metadataPresence (some frontmatter) = .pass .metadataPresence :=
  Outcome.eq_pass_of_passed (metadataPresence_passed.mpr
    ⟨_, _, fieldOf_author hauthor, fieldOf_contributors hcontributors⟩)

variable {document : Document} {check : Check}

lemma StopsAt.failsWith (allowed : AllowList)
    (hdocument : document.frontmatter = some frontmatter) (h : StopsAt frontmatter check fault) :
    ∃ details, (validate allowed document).FailsWith check details ∧
      fault.IsReported check details := by
  simp only [DocumentReport.FailsWith, outcome?_validate, Option.some.injEq]
  cases h with
  | author h =>
    rw [outcomeOf, hdocument]
    exact exists_authorFormat_eq_fail h
  | contributors hauthor h =>
    rw [outcomeOf, hdocument]
    exact exists_contributorsShape_eq_fail h
  | adaptedFrom hauthor hcontributors h =>
    rw [outcomeOf, hdocument]
    exact exists_adaptedFromFormat_eq_fail h
  | @inclusion author contributors source hauthor hcontributors hadapted h =>
    rw [outcomeOf, hdocument]
    exact ⟨_, authorInclusion_eq_fail hauthor hcontributors h, .leftOut author⟩

/-- The checks of the stages before pass, and no field that must be there is missing once both of
them have been read. -/
lemma StopsAt.passes (allowed : AllowList)
    (hdocument : document.frontmatter = some frontmatter) (h : StopsAt frontmatter check fault) :
    (∀ earlier ∈ Check.buildOrder.takeWhile (· ≠ check),
      (validate allowed document).Passes earlier) ∧
    (check = .adaptedFromFormat ∨ check = .authorInclusion →
      (validate allowed document).Passes .metadataPresence) := by
  simp only [DocumentReport.Passes, outcome?_validate, Option.some.injEq]
  cases h with
  | author h => simp [Check.buildOrder]
  | contributors hauthor h =>
    simp [Check.buildOrder, outcomeOf, hdocument, authorFormat_eq_pass hauthor]
  | adaptedFrom hauthor hcontributors h =>
    simp [Check.buildOrder, outcomeOf, hdocument, authorFormat_eq_pass hauthor,
      contributorsShape_eq_pass hcontributors, metadataPresence_eq_pass hauthor hcontributors]
  | inclusion hauthor hcontributors hadapted h =>
    simp [Check.buildOrder, outcomeOf, hdocument, authorFormat_eq_pass hauthor,
      contributorsShape_eq_pass hcontributors, adaptedFromFormat_eq_pass hadapted,
      metadataPresence_eq_pass hauthor hcontributors]

end Metadata

/-- The fault at which the building of the record stops is reported by the first check that fails
in the order of building. A missing field is reported as missing, a text that is no address is the
detail of the author or the first one of the contributors, and a field of the wrong shape fails the
check of this field, while everything that is read before it passes. When the author is not among
the contributors, nothing else is wrong with the frontmatter. -/
theorem first_fault_is_reported (allowed : AllowList) (document : Document) (frontmatter : Value)
    (fault : MetadataFault) (hdocument : document.frontmatter = some frontmatter)
    (h : Metadata.ofFrontmatter frontmatter = .error fault) :
    let report := validate allowed document
    (∃ check details, report.FailsWith check details ∧ fault.IsReported check details ∧
      ∀ earlier ∈ Check.buildOrder.takeWhile (· ≠ check), report.Passes earlier) ∧
    (∀ field, fault = .missing field → ∃ details,
      report.FailsWith .metadataPresence details ∧ missingDetail field ∈ details) ∧
    (∀ text, fault = .badAddress text → report.FailsWith .authorFormat [text] ∨
      report.Passes .authorFormat ∧
        ∃ others, report.FailsWith .contributorsShape (text :: others)) ∧
    (∀ reason, fault = .badField .author reason →
      ∃ details, report.FailsWith .authorFormat details) ∧
    (∀ reason, fault = .badField .contributors reason → report.Passes .authorFormat ∧
      ((∃ details, report.FailsWith .contributorsShape details) ∨
        (∃ details, report.FailsWith .authorInclusion details) ∧
          ∀ other ∈ Check.ofFrontmatter, other ≠ .authorInclusion → report.Passes other)) ∧
    ∀ reason, fault = .badField .adaptedFrom reason →
      (∃ details, report.FailsWith .adaptedFromFormat details) ∧
        report.Passes .metadataPresence ∧ report.Passes .authorFormat ∧
          report.Passes .contributorsShape := by
  intro report
  obtain ⟨check, hstops⟩ := exists_stopsAt h
  obtain ⟨details, hfails, hreported⟩ := hstops.failsWith allowed hdocument
  obtain ⟨hearlier, hpresence⟩ := hstops.passes allowed hdocument
  refine ⟨⟨check, details, hfails, hreported, hearlier⟩, fun field hfault => ?_,
    fun text hfault => ?_, fun reason hfault => ?_, fun reason hfault => ?_,
    fun reason hfault => ?_⟩
  · subst hfault
    obtain ⟨hrequired, hnone⟩ := missing_of_ofFrontmatter h
    obtain ⟨missing, hfail, hmem⟩ := exists_metadataPresence_eq_fail hrequired hnone
    refine ⟨missing, ?_, hmem⟩
    rw [DocumentReport.FailsWith, outcome?_validate, outcomeOf, hdocument, hfail]
  · subst hfault
    cases hreported with
    | badAuthor => exact .inl hfails
    | badContributor _ others => exact .inr ⟨hearlier .authorFormat (by decide), others, hfails⟩
  · subst hfault
    cases hreported with
    | otherAuthor found => exact ⟨_, hfails⟩
  · subst hfault
    cases hreported with
    | otherContributors found =>
      exact ⟨hearlier .authorFormat (by decide), .inl ⟨_, hfails⟩⟩
    | emptyContributors => exact ⟨hearlier .authorFormat (by decide), .inl ⟨_, hfails⟩⟩
    | leftOut author =>
      refine ⟨hearlier .authorFormat (by decide), .inr ⟨⟨_, hfails⟩, fun other hother hne => ?_⟩⟩
      have hcases : ∀ other ∈ Check.ofFrontmatter, other ≠ .authorInclusion →
          other = .metadataPresence ∨
            other ∈ Check.buildOrder.takeWhile (· ≠ .authorInclusion) := by
        decide
      rcases hcases other hother hne with rfl | hbefore
      · exact hpresence (.inr rfl)
      · exact hearlier other hbefore
  · subst hfault
    cases hreported with
    | otherSource found =>
      exact ⟨⟨_, hfails⟩, hpresence (.inl rfl), hearlier .authorFormat (by decide),
        hearlier .contributorsShape (by decide)⟩

/-- A document of two contributors that are no addresses, with a source that is not text. -/
def mixedDocument : Document :=
  ⟨"b.mdx", "", ⟨some (.object [("author", .string firstAddress),
    ("contributors", .array [.string secondAddress, .bool true, .string "0x1"]),
    ("adapted_from", .array [])]), ""⟩⟩

theorem first_fault_is_reported_mixed :
    Metadata.ofFrontmatter (mixedDocument.frontmatter.getD .null) = .error (.badAddress "true") ∧
    ((validate AllowList.builtIn mixedDocument).FailsWith .authorFormat ["true"] ∨
      (validate AllowList.builtIn mixedDocument).Passes .authorFormat ∧
        ∃ others, (validate AllowList.builtIn mixedDocument).FailsWith .contributorsShape
          ("true" :: others)) := by
  have hfault : Metadata.ofFrontmatter (mixedDocument.frontmatter.getD .null) =
      .error (.badAddress "true") := rfl
  obtain ⟨-, -, haddress, -⟩ :=
    first_fault_is_reported AllowList.builtIn mixedDocument _ _ rfl hfault
  exact ⟨hfault, haddress "true" rfl⟩

end PuzzleGate
