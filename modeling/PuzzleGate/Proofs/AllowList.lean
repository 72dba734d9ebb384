import PuzzleGate.AllowList.Basic
import PuzzleGate.Proofs.Fold
import PuzzleGate.Proofs.Text.Blank

/-!
# The names of an allow-list

A list holds the names that it was made from, trimmed, and no blank ones. They are in order, each
once, so that a list made from the names of a list is the same list.
-/

namespace PuzzleGate

lemma mem_insertName {name other : String} {names : List String} :
    name ∈ insertName other names ↔ name ∈ names ∨ name = other := by
  induction names with
  | nil => simp [insertName]
  | cons n names ih =>
    rw [insertName]
    split
    · rw [List.mem_cons, or_comm]
    · split
      · rename_i heq
        simp [heq, or_comm]
      · rw [List.mem_cons, ih, List.mem_cons, or_assoc]

lemma insertName_append {name : String} {names : List String} (h : ∀ n ∈ names, n < name) :
    insertName name names = names ++ [name] := by
  induction names with
  | nil => rfl
  | cons n names ih =>
    have hlt : n < name := h n (List.mem_cons_self ..)
    have hne : name ≠ n := fun heq => String.lt_irrefl n (heq ▸ hlt)
    rw [insertName, if_neg (String.lt_asymm hlt), if_neg hne,
      ih fun n hn => h n (List.mem_cons_of_mem _ hn)]
    rfl

lemma pairwise_insertName {name : String} {names : List String} (h : names.Pairwise (· < ·)) :
    (insertName name names).Pairwise (· < ·) := by
  induction names with
  | nil => exact List.pairwise_singleton ..
  | cons n names ih =>
    obtain ⟨hfirst, hrest⟩ := List.pairwise_cons.mp h
    rw [insertName]
    split
    · rename_i hlt
      refine List.pairwise_cons.mpr ⟨?_, h⟩
      rintro m hm
      rcases List.mem_cons.mp hm with rfl | hm
      · exact hlt
      · exact String.lt_trans hlt (hfirst m hm)
    · split
      · exact h
      · rename_i hnot hne
        have hbehind : n < name := by
          by_contra hle
          exact hne (String.le_antisymm (String.not_lt.mp hle) (String.not_lt.mp hnot))
        refine List.pairwise_cons.mpr ⟨fun m hm => ?_, ih hrest⟩
        rcases mem_insertName.mp hm with hm | rfl
        · exact hfirst m hm
        · exact hbehind

namespace AllowList

theorem mem_ofNames {name : String} {names : List String} :
    name ∈ (ofNames names).names ↔ name ≠ "" ∧ ∃ n ∈ names, Text.trim n = name := by
  rw [ofNames, mem_foldl_iff (name ∈ ·) fun seen other => mem_insertName]
  simp [and_comm]

theorem pairwise_ofNames (names : List String) : (ofNames names).names.Pairwise (· < ·) := by
  have hfold (rest seen : List String) (h : seen.Pairwise (· < ·)) :
      (rest.foldl (fun list name => insertName name list) seen).Pairwise (· < ·) := by
    induction rest generalizing seen with
    | nil => exact h
    | cons name rest ih => exact ih _ (pairwise_insertName h)
  exact hfold _ [] List.Pairwise.nil

theorem ofNames_names (names : List String) : ofNames (ofNames names).names = ofNames names := by
  have htrimmed : (ofNames names).names.map Text.trim = (ofNames names).names := by
    refine (List.map_congr_left fun name hname => ?_).trans (List.map_id _)
    obtain ⟨-, n, -, rfl⟩ := mem_ofNames.mp hname
    exact Text.trim_trim n
  have hkept : (ofNames names).names.filter (· ≠ "") = (ofNames names).names := by
    refine List.filter_eq_self.mpr fun name hname => ?_
    simpa using (mem_ofNames.mp hname).1
  rw [ofNames, htrimmed, hkept,
    foldl_of_pairwise (fun _ _ hbehind => insertName_append hbehind) (pairwise_ofNames names)]

lemma filter_contains (allowed : AllowList) (names : List String) :
    names.filter allowed.contains = names.filter (fun name => name ∉ allowed.disallowed names) := by
  refine List.filter_congr fun name hname => ?_
  simp [disallowed, hname]

end AllowList

end PuzzleGate
