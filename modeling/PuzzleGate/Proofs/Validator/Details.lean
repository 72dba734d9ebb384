import PuzzleGate.Proofs.AllowList.Verdict
import PuzzleGate.Proofs.Json.OneLine

/-!
# Details of several lines

A detail is meant to be printed on one line. Calls, names of elements and values written as JSON
have no line feed in them. Only texts that the frontmatter gives itself can have one, as author or
as contributors, since they are printed as they are.
-/

namespace PuzzleGate

open Call Json

/-- The check quotes a text that the frontmatter gives as author or contributor. -/
inductive IsQuotedBy (frontmatter : Option Value) : Check → String → Prop
  | author {s : String} (h : fieldOf frontmatter .author = some (.string s)) :
    IsQuotedBy frontmatter .authorFormat s
  | contributor {items : List Value} {s : String}
    (h : fieldOf frontmatter .contributors = some (.array items)) (hitem : .string s ∈ items) :
    IsQuotedBy frontmatter .contributorsShape s
  | remark {s : String} (h : fieldOf frontmatter .author = some (.string s)) :
    IsQuotedBy frontmatter .authorInclusion (s ++ " not in contributors")

variable {frontmatter : Option Value} {detail raw : String}

lemma feed_not_mem_append {front text : String} (hfront : '\n' ∉ front.toList)
    (h : '\n' ∉ text.toList) : '\n' ∉ (front ++ text).toList := by
  rw [String.toList_append, List.mem_append, not_or]
  exact ⟨hfront, h⟩

lemma feed_not_mem_missingDetail (field : MetadataField) :
    '\n' ∉ (missingDetail field).toList := by
  cases field <;> decide

/-- A value that is described on several lines is a text. -/
lemma exists_string_of_feed_mem_describe {value : Value} (h : '\n' ∈ (describe value).toList) :
    ∃ s, value = .string s := by
  unfold describe at h
  split at h
  · exact ⟨_, rfl⟩
  · exact absurd h (Value.feed_not_mem_text _)

lemma feed_not_mem_of_isName {name : List Char} (h : IsName name) : '\n' ∉ name :=
  fun hfeed => absurd (h.2 _ hfeed) (by decide)

lemma feed_not_mem_of_mem_scan {m : Match} (h : m ∈ scan raw) : '\n' ∉ m.text.toList := by
  obtain ⟨name, front, rest, -, htext, -, hfound⟩ := (scans_scan raw).standsIn m h
  obtain ⟨hname, -⟩ := frontCall?_sound hfound
  have hletters : '\n' ∉ name := feed_not_mem_of_isName hname
  have hopening : '\n' ∉ m.wrapper.opening := by cases m.wrapper <;> decide
  have hcomponents : '\n' ∉ components := by decide
  have hoperand : '\n' ∉ m.shape.operand name := by
    cases m.shape with
    | member => simp [Shape.operand, hcomponents, hletters]
    | literal => simp [Shape.operand, hletters]
    | ident => exact hletters
  rw [htext, String.toList_ofList, wrapChars, List.mem_append, not_or]
  exact ⟨hopening, hoperand⟩

section Checks

lemma feed_not_mem_metadataPresence (h : detail ∈ (metadataPresence frontmatter).details) :
    '\n' ∉ detail.toList := by
  cases frontmatter with
  | none =>
    rw [List.mem_singleton.mp h]
    decide
  | some frontmatter =>
    rw [metadataPresence, Outcome.details_ofDetails] at h
    obtain ⟨field, -, rfl⟩ := List.mem_map.mp h
    exact feed_not_mem_missingDetail field

lemma isQuotedBy_authorFormat (h : detail ∈ (authorFormat frontmatter).details)
    (hfeed : '\n' ∈ detail.toList) : IsQuotedBy frontmatter .authorFormat detail := by
  rw [authorFormat, Outcome.details_ofDetails] at h
  split at h
  · rw [List.mem_singleton.mp h] at hfeed
    exact absurd hfeed (feed_not_mem_missingDetail .author)
  · rename_i s hauthor
    split_ifs at h with haddress
    · cases h
    · rw [List.mem_singleton.mp h]
      exact .author hauthor
  · rename_i other _ _
    rw [List.mem_singleton.mp h] at hfeed
    exact absurd hfeed (feed_not_mem_append (by decide) other.feed_not_mem_text)

lemma isQuotedBy_contributorsShape (h : detail ∈ (contributorsShape frontmatter).details)
    (hfeed : '\n' ∈ detail.toList) : IsQuotedBy frontmatter .contributorsShape detail := by
  rw [contributorsShape, Outcome.details_ofDetails] at h
  split at h
  · rw [List.mem_singleton.mp h] at hfeed
    exact absurd hfeed (feed_not_mem_missingDetail .contributors)
  · rw [List.mem_singleton.mp h] at hfeed
    exact absurd hfeed (by decide)
  · rename_i items _ hitems
    obtain ⟨item, hitem, rfl⟩ := List.mem_map.mp h
    obtain ⟨s, rfl⟩ := exists_string_of_feed_mem_describe hfeed
    exact .contributor hitems (List.mem_of_mem_filter hitem)
  · rename_i other _ _ _
    rw [List.mem_singleton.mp h] at hfeed
    exact absurd hfeed (feed_not_mem_append (by decide) other.feed_not_mem_text)

lemma isQuotedBy_authorInclusion (h : detail ∈ (authorInclusion frontmatter).details)
    (hfeed : '\n' ∈ detail.toList) : IsQuotedBy frontmatter .authorInclusion detail := by
  rw [authorInclusion, Outcome.details_ofDetails] at h
  split at h
  · rw [List.mem_singleton.mp h] at hfeed
    exact absurd hfeed (feed_not_mem_missingDetail .author)
  · rw [List.mem_singleton.mp h] at hfeed
    exact absurd hfeed (feed_not_mem_missingDetail .contributors)
  · rename_i author items hauthor _
    split_ifs at h with hincluded
    · cases h
    · rw [List.mem_singleton.mp h] at hfeed ⊢
      have hname : '\n' ∈ (describe author).toList := by
        by_contra hnone
        exact feed_not_mem_append hnone (by decide) hfeed
      obtain ⟨s, rfl⟩ := exists_string_of_feed_mem_describe hname
      exact .remark hauthor
  · rename_i other _ _ _
    rw [List.mem_singleton.mp h] at hfeed
    exact absurd hfeed (feed_not_mem_append (by decide) other.feed_not_mem_text)

lemma feed_not_mem_adaptedFromFormat (h : detail ∈ (adaptedFromFormat frontmatter).details) :
    '\n' ∉ detail.toList := by
  rw [adaptedFromFormat, Outcome.details_ofDetails] at h
  split at h
  · cases h
  · cases h
  · rename_i other _ _
    rw [List.mem_singleton.mp h]
    exact feed_not_mem_append (by decide) other.feed_not_mem_text

lemma feed_not_mem_prohibitedRawContent (h : detail ∈ (prohibitedRawContent raw).details) :
    '\n' ∉ detail.toList := by
  rw [prohibitedRawContent, Outcome.details_ofDetails, mem_distinct] at h
  obtain ⟨m, hm, rfl⟩ := List.mem_map.mp h
  exact feed_not_mem_of_mem_scan hm

lemma feed_not_mem_elementAllowList {allowed : AllowList} {source : String}
    (h : detail ∈ (elementAllowList allowed (elements source)).details) :
    '\n' ∉ detail.toList := by
  rw [elementAllowList, Outcome.details_ofDetails, AllowList.mem_disallowed] at h
  exact feed_not_mem_of_isName (isName_of_mem_elements h.1)

end Checks

/-- A detail of several lines is the author or a contributor as the frontmatter gives them. -/
theorem isQuotedBy_of_feed_mem {allowed : AllowList} {document : Document} {outcome : Outcome}
    (houtcome : outcome ∈ (validate allowed document).checks) (h : detail ∈ outcome.details)
    (hfeed : '\n' ∈ detail.toList) : IsQuotedBy document.frontmatter outcome.check detail := by
  rw [checks_validate] at houtcome
  obtain ⟨check, -, rfl⟩ := List.mem_map.mp houtcome
  rw [check_outcomeOf]
  cases check with
  | metadataPresence => exact absurd hfeed (feed_not_mem_metadataPresence h)
  | authorFormat => exact isQuotedBy_authorFormat h hfeed
  | contributorsShape => exact isQuotedBy_contributorsShape h hfeed
  | authorInclusion => exact isQuotedBy_authorInclusion h hfeed
  | adaptedFromFormat => exact absurd hfeed (feed_not_mem_adaptedFromFormat h)
  | prohibitedRawContent => exact absurd hfeed (feed_not_mem_prohibitedRawContent h)
  | elementAllowList => exact absurd hfeed (feed_not_mem_elementAllowList h)

end PuzzleGate
