import PuzzleGate.Proofs.Call.Counts
import PuzzleGate.Proofs.Call.Wrap
import PuzzleGate.Proofs.Outcome

/-!
# Verdicts under a larger list

An allow-list decides about the elements of a document and about nothing else. A list that has more
names complains about fewer elements, in the same order. The elements that are complained about are
exactly those whose names must be added for the check to pass, and adding them is enough: the name
of an element has no blank character, so that a list keeps it as it is.
-/

namespace PuzzleGate

open Call

variable {allowed larger : AllowList} {document : Document} {name source : String}

lemma isBlank_of_isNameChar {c : Char} (h : isNameChar c = true) : Text.isBlank c = false := by
  have hle (a b : Char) : a ≤ b ↔ a.toNat ≤ b.toNat := Char.le_def.trans UInt32.le_iff_toNat_le
  have hrange : 45 ≤ c.toNat ∧ c.toNat ≤ 122 := by
    simp only [isNameChar, Bool.or_eq_true, Bool.and_eq_true, decide_eq_true_eq, hle] at h
    rcases h with (((h | h) | h) | rfl) | rfl
    · exact ⟨Nat.le_trans (by decide) h.1, h.2⟩
    · exact ⟨Nat.le_trans (by decide) h.1, Nat.le_trans h.2 (by decide)⟩
    · exact ⟨Nat.le_trans (by decide) h.1, Nat.le_trans h.2 (by decide)⟩
    · decide
    · decide
  simp only [Text.isBlank, Bool.or_eq_false_iff, Bool.and_eq_false_iff, decide_eq_false_iff_not,
    beq_eq_false_iff_ne]
  omega

lemma trim_of_isName (h : IsName name.toList) : Text.trim name = name ∧ name ≠ "" := by
  have hnone : ∀ c ∈ name.toList, Text.isBlank c = false := fun c hc =>
    isBlank_of_isNameChar (h.2 c hc)
  have htrimmed : Text.IsTrimmed name.toList :=
    ⟨fun c hc => hnone c (List.mem_of_mem_head? hc), fun c hc => hnone c (List.mem_of_getLast? hc)⟩
  refine ⟨?_, ?_⟩
  · rw [← String.toList_inj, Text.toList_trim, Text.trimChars_of_isTrimmed htrimmed]
  · rintro rfl
    exact h.1 rfl

lemma isName_of_mem_elements (h : name ∈ elements source) : IsName name.toList := by
  obtain ⟨m, hm, rfl⟩ := mem_elements.mp h
  exact ((scans_scan source).standsIn m hm).isName

lemma detailsOf_elementAllowList (allowed : AllowList) (document : Document) :
    (validate allowed document).detailsOf .elementAllowList =
      allowed.disallowed (elements document.source) := by
  rw [detailsOf_validate, outcomeOf, elementAllowList, Outcome.details_ofDetails]

lemma passes_elementAllowList : (validate allowed document).Passes .elementAllowList ↔
    ∀ name ∈ elements document.source, name ∈ allowed.names := by
  rw [passes_validate, outcomeOf, elementAllowList_passed]
  simp [AllowList.contains]

lemma AllowList.mem_disallowed {names : List String} :
    name ∈ allowed.disallowed names ↔ name ∈ names ∧ name ∉ allowed.names := by
  simp [disallowed, contains]

lemma AllowList.disallowed_of_subset (h : ∀ name ∈ allowed.names, name ∈ larger.names)
    (names : List String) : larger.disallowed names =
      (allowed.disallowed names).filter fun name => name ∉ larger.names := by
  rw [disallowed, disallowed, List.filter_filter]
  refine List.filter_congr fun name _ => ?_
  by_cases hname : name ∈ larger.names
  · simp [contains, hname]
  · have hnot : name ∉ allowed.names := fun hmem => hname (h name hmem)
    simp [contains, hname, hnot]

lemma nodup_detailsOf (allowed : AllowList) (document : Document) :
    ((validate allowed document).detailsOf .elementAllowList).Nodup := by
  rw [detailsOf_elementAllowList, elements_eq_distinct]
  exact (nodup_distinct _).filter _

lemma passes_of_subset (h : ∀ name ∈ allowed.names, name ∈ larger.names)
    (hpasses : (validate allowed document).Passes .elementAllowList) :
    (validate larger document).Passes .elementAllowList :=
  passes_elementAllowList.mpr fun name hname =>
    h name (passes_elementAllowList.mp hpasses name hname)

/-- Only the check of the elements depends on the list. -/
lemma outcomeOf_eq {check : Check} (h : check ≠ .elementAllowList) :
    outcomeOf larger document check = outcomeOf allowed document check := by
  cases check with
  | elementAllowList => exact absurd rfl h
  | _ => rfl

lemma passed_of_subset (h : ∀ name ∈ allowed.names, name ∈ larger.names)
    (hpassed : (validate allowed document).passed = true) :
    (validate larger document).passed = true := by
  rw [passed_validate] at hpassed ⊢
  intro check
  by_cases hcheck : check = .elementAllowList
  · subst hcheck
    exact passes_validate.mp (passes_of_subset h (passes_validate.mpr (hpassed .elementAllowList)))
  · rw [outcomeOf_eq hcheck]
    exact hpassed check

lemma AllowList.mem_ofNames_append {names extra : List String} (hname : name ≠ "") :
    name ∈ (ofNames ((ofNames names).names ++ extra)).names ↔
      name ∈ (ofNames names).names ∨ name ∈ extra.map Text.trim := by
  have hagain : (∃ n ∈ (ofNames names).names, Text.trim n = name) ↔
      name ∈ (ofNames names).names := by
    rw [← ofNames_names names, mem_ofNames, ofNames_names]
    exact (and_iff_right hname).symm
  rw [mem_ofNames, and_iff_right hname, List.mem_map, ← hagain]
  simp only [List.mem_append, or_and_right, exists_or]

/-- With extra names beside the old ones an element passes by the old names or by the extra ones, so
that the extra names have to be those that were complained about. -/
lemma passes_ofNames_append (names extra : List String) :
    (validate (.ofNames ((AllowList.ofNames names).names ++ extra)) document).Passes
        .elementAllowList ↔
      ∀ detail ∈ (validate (.ofNames names) document).detailsOf .elementAllowList,
        detail ∈ extra.map Text.trim := by
  simp only [passes_elementAllowList, detailsOf_elementAllowList, AllowList.mem_disallowed, and_imp]
  refine forall_congr' fun name => forall_congr' fun helement => ?_
  have hne := (trim_of_isName (isName_of_mem_elements helement)).2
  rw [AllowList.mem_ofNames_append hne, or_iff_not_imp_left]

lemma trim_detail {detail : String}
    (h : detail ∈ (validate allowed document).detailsOf .elementAllowList) :
    Text.trim detail = detail := by
  rw [detailsOf_elementAllowList, AllowList.mem_disallowed] at h
  exact (trim_of_isName (isName_of_mem_elements h.1)).1

/-- Under a larger list the details are those under the smaller one without the names of the larger
one, whatever passes still passes, and nothing but the check of the elements changes. When a list is
made again with extra names, the elements pass exactly if each detail is an extra name without the
blanks around it, and the details themselves will do. -/
theorem verdict_of_larger_list (document : Document) :
    (∀ allowed larger : AllowList, (∀ name ∈ allowed.names, name ∈ larger.names) →
      ((validate larger document).detailsOf .elementAllowList =
        ((validate allowed document).detailsOf .elementAllowList).filter
          fun name => name ∉ larger.names) ∧
      ((validate allowed document).Passes .elementAllowList →
        (validate larger document).Passes .elementAllowList) ∧
      ((validate allowed document).passed = true → (validate larger document).passed = true) ∧
      (∀ check, check ≠ .elementAllowList →
        (validate larger document).outcome? check = (validate allowed document).outcome? check) ∧
      (validate larger document).elements = (validate allowed document).elements ∧
      (validate larger document).metadata = (validate allowed document).metadata) ∧
    ∀ names extra : List String,
      let allowed := AllowList.ofNames names
      let details := (validate allowed document).detailsOf .elementAllowList
      details.Nodup ∧
      ((validate (.ofNames (allowed.names ++ extra)) document).Passes .elementAllowList ↔
        ∀ detail ∈ details, detail ∈ extra.map Text.trim) ∧
      (validate (.ofNames (allowed.names ++ details)) document).Passes .elementAllowList := by
  refine ⟨fun allowed larger hsubset => ?_, fun names extra => ?_⟩
  · refine ⟨?_, passes_of_subset hsubset, passed_of_subset hsubset, fun check hcheck => ?_,
      rfl, rfl⟩
    · rw [detailsOf_elementAllowList, detailsOf_elementAllowList,
        AllowList.disallowed_of_subset hsubset]
    · rw [outcome?_validate, outcome?_validate, outcomeOf_eq hcheck]
  · refine ⟨nodup_detailsOf _ document, passes_ofNames_append names extra,
      (passes_ofNames_append names _).mpr fun detail hdetail => ?_⟩
    exact List.mem_map.mpr ⟨detail, hdetail, trim_detail hdetail⟩

/-- A document with a member, a tag that is not allowed, and a component that is not allowed. -/
def widgetDocument : Document :=
  ⟨"w.mdx", "", ⟨none, "_jsx(_components.p) _jsx(\"script\") _jsxs(Quiz) _jsx(Quiz)"⟩⟩

theorem verdict_of_larger_list_widget :
    (validate (.ofNames ["p", "Quiz "]) widgetDocument).detailsOf .elementAllowList =
      ["script", "Quiz"].filter (fun name => name ∉ (AllowList.ofNames ["p", "Quiz "]).names) ∧
    (validate (.ofNames ((AllowList.ofNames ["p"]).names ++ ["\tscript", "Quiz "]))
      widgetDocument).Passes .elementAllowList := by
  obtain ⟨hlarger, hrepair⟩ := verdict_of_larger_list widgetDocument
  have hdetails : (validate (.ofNames ["p"]) widgetDocument).detailsOf .elementAllowList =
      ["script", "Quiz"] := by
    decide +kernel
  have hsubset : ∀ name ∈ (AllowList.ofNames ["p"]).names,
      name ∈ (AllowList.ofNames ["p", "Quiz "]).names := by
    decide +kernel
  refine ⟨hdetails ▸ (hlarger _ _ hsubset).1, (hrepair ["p"] ["\tscript", "Quiz "]).2.1.mpr ?_⟩
  rw [hdetails]
  decide +kernel

end PuzzleGate
