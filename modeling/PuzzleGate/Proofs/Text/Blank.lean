import Mathlib.Data.List.DropRight
import PuzzleGate.Text.Blank

/-!
# Trimmed texts

A text is trimmed when it has no blank character at either end. Trimming gives such a text, leaves
it as it is, and takes off whatever blank characters are put around it.
-/

namespace PuzzleGate.Text

/-- Neither the first nor the last character is blank. -/
structure IsTrimmed (s : List Char) : Prop where
  front : ∀ c ∈ s.head?, isBlank c = false
  back : ∀ c ∈ s.getLast?, isBlank c = false

lemma dropWhile_of_front {s : List Char} (h : ∀ c ∈ s.head?, isBlank c = false) :
    s.dropWhile isBlank = s := by
  cases s with
  | nil => rfl
  | cons c s => exact List.dropWhile_cons_of_neg (by simp [h c rfl])

lemma trimChars_eq (s : List Char) : trimChars s = (s.dropWhile isBlank).rdropWhile isBlank := rfl

lemma trimChars_of_isTrimmed {s : List Char} (h : IsTrimmed s) : trimChars s = s := by
  rw [trimChars_eq, dropWhile_of_front h.front, List.rdropWhile_eq_self_iff]
  intro hne
  rw [h.back _ (List.getLast?_eq_some_getLast hne)]
  decide

theorem isTrimmed_trimChars (s : List Char) : IsTrimmed (trimChars s) := by
  rw [trimChars_eq]
  constructor
  · intro c hc
    obtain ⟨rest, hrest⟩ := List.rdropWhile_prefix isBlank (s.dropWhile isBlank)
    have hfront : (s.dropWhile isBlank).head? = some c := by
      rw [← hrest, List.head?_append, hc]
      rfl
    have hnot := List.head?_dropWhile_not isBlank s
    rw [hfront] at hnot
    simpa using hnot
  · intro c hc
    obtain ⟨hne, rfl⟩ := List.mem_getLast?_eq_getLast hc
    simpa using List.rdropWhile_last_not isBlank _ hne

lemma trimChars_append_front {before : List Char} (h : ∀ c ∈ before, isBlank c = true)
    (s : List Char) : trimChars (before ++ s) = trimChars s := by
  rw [trimChars_eq, List.dropWhile_append_of_pos h, ← trimChars_eq]

lemma trimChars_append_back {after : List Char} (h : ∀ c ∈ after, isBlank c = true)
    (s : List Char) : trimChars (s ++ after) = trimChars s := by
  rw [trimChars, trimChars, List.dropWhile_append]
  split
  · rename_i hempty
    rw [List.isEmpty_iff.mp hempty, List.dropWhile_eq_nil_iff.mpr h]
  · rw [List.reverse_append, List.dropWhile_append_of_pos]
    intro c hc
    exact h c (List.mem_reverse.mp hc)

lemma trimChars_eq_nil_iff {s : List Char} : trimChars s = [] ↔ ∀ c ∈ s, isBlank c = true := by
  rw [trimChars_eq, List.rdropWhile_eq_nil_iff, ← List.dropWhile_eq_nil_iff,
    List.dropWhile_idempotent, List.dropWhile_eq_nil_iff]

@[simp] lemma toList_trim (s : String) : (trim s).toList = trimChars s.toList :=
  String.toList_ofList

/-- Blank characters around a trimmed text are what trimming takes off. -/
theorem trim_append {before text after : String} (hbefore : ∀ c ∈ before.toList, isBlank c = true)
    (hafter : ∀ c ∈ after.toList, isBlank c = true) (h : IsTrimmed text.toList) :
    trim (before ++ text ++ after) = text := by
  rw [← String.toList_inj, toList_trim, String.toList_append, String.toList_append,
    trimChars_append_back hafter, trimChars_append_front hbefore, trimChars_of_isTrimmed h]

/-- Text is what remains of whole when the blank characters around it are taken off. -/
def IsTrimmedForm (text whole : String) : Prop :=
  IsTrimmed text.toList ∧ ∃ before after : String, (∀ c ∈ before.toList, isBlank c = true) ∧
    (∀ c ∈ after.toList, isBlank c = true) ∧ whole = before ++ text ++ after

lemma trimChars_infix (s : List Char) : ∃ before after, (∀ c ∈ before, isBlank c = true) ∧
    (∀ c ∈ after, isBlank c = true) ∧ s = before ++ trimChars s ++ after := by
  refine ⟨s.takeWhile isBlank, (s.dropWhile isBlank).rtakeWhile isBlank,
    fun c hc => List.mem_takeWhile_imp hc, fun c hc => List.mem_rtakeWhile_imp hc, ?_⟩
  rw [trimChars_eq, List.append_assoc, List.rdropWhile_append_rtakeWhile,
    List.takeWhile_append_dropWhile]

theorem trim_eq_iff {text whole : String} : trim whole = text ↔ IsTrimmedForm text whole := by
  constructor
  · rintro rfl
    obtain ⟨before, after, hbefore, hafter, hwhole⟩ := trimChars_infix whole.toList
    refine ⟨toList_trim whole ▸ isTrimmed_trimChars _, .ofList before, .ofList after, ?_, ?_, ?_⟩
    · rwa [String.toList_ofList]
    · rwa [String.toList_ofList]
    · rw [← String.toList_inj, String.toList_append, String.toList_append, String.toList_ofList,
        String.toList_ofList, toList_trim]
      exact hwhole
  · rintro ⟨htrimmed, before, after, hbefore, hafter, rfl⟩
    exact trim_append hbefore hafter htrimmed

theorem trim_eq_empty_iff {s : String} : trim s = "" ↔ ∀ c ∈ s.toList, isBlank c = true := by
  rw [← trimChars_eq_nil_iff, ← toList_trim, String.toList_eq_nil_iff]

theorem trim_trim (s : String) : trim (trim s) = trim s := by
  rw [← String.toList_inj, toList_trim, toList_trim,
    trimChars_of_isTrimmed (isTrimmed_trimChars s.toList)]

end PuzzleGate.Text
