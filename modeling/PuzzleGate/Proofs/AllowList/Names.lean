import Mathlib.Data.List.Sort
import PuzzleGate.Proofs.AllowList.Formats
import PuzzleGate.Proofs.Text.Order

/-!
# An allow-list is a set of trimmed names

Of the names that a list is made from only the set of their trimmed forms counts, without the empty
one. The list has them in the order of their bytes, and it can be made again from what it has. What
it does not allow of some elements is decided element by element.
-/

namespace PuzzleGate.AllowList

open Text

variable {names names' : List String} {name : String}

lemma contains_ofNames : (ofNames names).contains name = true ↔
    name ≠ "" ∧ ∃ n ∈ names, IsTrimmedForm name n := by
  rw [contains, List.contains_iff_mem, mem_ofNames]
  simp only [trim_eq_iff]

lemma ofNames_eq_of_mem_iff (h : ∀ n, n ∈ names ↔ n ∈ names') : ofNames names = ofNames names' := by
  have hmem (name : String) : name ∈ (ofNames names).names ↔ name ∈ (ofNames names').names := by
    rw [mem_ofNames, mem_ofNames]
    simp only [h]
  exact congrArg AllowList.mk
    ((pairwise_ofNames names).eq_of_mem_iff (pairwise_ofNames names') hmem)

lemma isEmpty_ofNames : (ofNames names).isEmpty = true ↔
    ∀ n ∈ names, ∀ c ∈ n.toList, isBlank c = true := by
  rw [isEmpty, List.isEmpty_iff, names_ofNames_eq_nil_iff]
  simp only [List.all_eq_true]

lemma pairwise_bytes_ofNames (names : List String) :
    (ofNames names).names.Pairwise (Utf8.bytes · < Utf8.bytes ·) :=
  (pairwise_ofNames names).imp bytes_lt_iff.mpr

lemma shown_of_mem_ofNames (h : name ∈ (ofNames names).names) :
    (∃ c ∈ name.toList, isBlank c = false) ∧ IsTrimmed name.toList := by
  obtain ⟨hne, n, -, htrim⟩ := mem_ofNames.mp h
  have htrimmed := (trim_eq_iff.mp htrim).1
  refine ⟨?_, htrimmed⟩
  by_contra hall
  have hblank : trim name = "" := trim_eq_empty_iff.mpr fun c hc => by
    by_contra hc'
    exact hall ⟨c, hc, Bool.eq_false_of_not_eq_true hc'⟩
  rw [← htrim, trim_trim, htrim] at hblank
  exact hne hblank

/-- What is not allowed is the part of the elements that has each element as often as it is given,
if the list does not have it, and never otherwise. -/
lemma eq_disallowed_iff (allowed : AllowList) {kept elements : List String} :
    kept = allowed.disallowed elements ↔ kept.Sublist elements ∧
      ∀ name, kept.count name = if allowed.contains name then 0 else elements.count name := by
  have hcount (name : String) : (allowed.disallowed elements).count name =
      if allowed.contains name then 0 else elements.count name := by
    rw [disallowed]
    split
    · rename_i hname
      exact List.count_eq_zero.mpr fun hmem => by simp [hname] at hmem
    · rename_i hname
      exact List.count_filter (by simp [hname])
  constructor
  · rintro rfl
    exact ⟨List.filter_sublist, hcount⟩
  · rintro ⟨hsublist, hkept⟩
    have hperm : kept.Perm (allowed.disallowed elements) :=
      List.perm_iff_count.mpr fun name => (hkept name).trans (hcount name).symm
    have hself : allowed.disallowed kept = kept := List.filter_eq_self.mpr fun name hname => by
      simpa using (List.mem_filter.mp (hperm.mem_iff.mp hname)).2
    have hpart := hsublist.filter fun name => !allowed.contains name
    exact List.Sublist.eq_of_length (hself ▸ hpart) hperm.length_eq

/-- A list that is made from names has their trimmed forms, but for the empty one. It has them in
the order of their bytes, each once, and none of them is blank or has blank characters around it. It
is empty exactly when all the names are blank. The same list is made from the same names in another
order or number, and from the names that it has. What it does not allow of some elements are those
that it does not have, all of them, in the given order. -/
theorem ofNames_is_set (names : List String) :
    (∀ name, (ofNames names).contains name = true ↔
      name ≠ "" ∧ ∃ n ∈ names, IsTrimmedForm name n) ∧
    (∀ name, (ofNames names).contains name = true ↔ name ∈ (ofNames names).names) ∧
    (ofNames names).names.Pairwise (Utf8.bytes · < Utf8.bytes ·) ∧
    (ofNames names).size = (ofNames names).names.length ∧
    ((ofNames names).isEmpty = true ↔ ∀ n ∈ names, ∀ c ∈ n.toList, isBlank c = true) ∧
    (∀ name ∈ (ofNames names).names,
      (∃ c ∈ name.toList, isBlank c = false) ∧ IsTrimmed name.toList) ∧
    (∀ names', (∀ n, n ∈ names' ↔ n ∈ names) → ofNames names' = ofNames names) ∧
    ofNames (ofNames names).names = ofNames names ∧
    ∀ elements kept, kept = (ofNames names).disallowed elements ↔ kept.Sublist elements ∧
      ∀ name, kept.count name =
        if (ofNames names).contains name then 0 else elements.count name :=
  ⟨fun _ => contains_ofNames, fun _ => List.contains_iff_mem, pairwise_bytes_ofNames names, rfl,
    isEmpty_ofNames, fun _ => shown_of_mem_ofNames, fun _ => ofNames_eq_of_mem_iff,
    ofNames_names names, fun _ _ => eq_disallowed_iff _⟩

/-- Blank characters of several kinds, two spellings of one name, and characters of each length. -/
theorem ofNames_is_set_spaced :
    let allowed := ofNames ["\u3000p\t", "é", "\u0085 ", "p", "𝒳", "h1\u00a0"]
    allowed.names = ["h1", "p", "é", "𝒳"] ∧
    ((∃ c ∈ "é".toList, isBlank c = false) ∧ IsTrimmed "é".toList) ∧
    ofNames ["p", "𝒳", "𝒳", "\u0085 ", "é", "h1\u00a0", "\u3000p\t"] = allowed := by
  obtain ⟨-, -, -, -, -, hshown, hsame, -⟩ :=
    ofNames_is_set ["\u3000p\t", "é", "\u0085 ", "p", "𝒳", "h1\u00a0"]
  refine ⟨by decide +kernel, hshown "é" (by decide +kernel), hsame _ fun n =>
    ⟨fun hn => ?_, fun hn => ?_⟩⟩
  · exact List.subset_def.mp (by decide +kernel) hn
  · exact List.subset_def.mp (by decide +kernel) hn

end PuzzleGate.AllowList
