import Mathlib.Data.List.TakeWhile
import PuzzleGate.Proofs.Text.Lines

/-!
# The pieces of a printed text

A text that is printed falls into pieces at its line feeds. A text that is quoted in a line begins
on that line, and the pieces behind its first one are lines of their own.
-/

namespace PuzzleGate.Text

/-- What stands between the line feeds of a text. -/
def pieces (text : String) : List String := (splitOn '\n' text.toList).map .ofList

/-- The text up to its first line feed. -/
def headPiece (text : String) : String := .ofList (text.toList.takeWhile (· ≠ '\n'))

lemma pieces_of_not_mem {text : String} (h : '\n' ∉ text.toList) : pieces text = [text] := by
  rw [pieces, splitOn_eq, List.splitOn_eq_singleton h, List.map_singleton, String.ofList_toList]

lemma pieces_append_feed (text rest : String) :
    pieces (text ++ "\n" ++ rest) = pieces text ++ pieces rest := by
  have hchars : (text ++ "\n" ++ rest).toList = text.toList ++ '\n' :: rest.toList := by simp
  rw [pieces, hchars, splitOn_eq, List.splitOn_append_cons_self, List.map_append, ← splitOn_eq,
    ← splitOn_eq]
  rfl

lemma pieces_intercalate {texts : List String} (h : texts ≠ []) :
    pieces ("\n".intercalate texts) = texts.flatMap pieces := by
  induction texts with
  | nil => exact absurd rfl h
  | cons text texts ih =>
    by_cases hrest : texts = []
    · simp [hrest]
    · rw [String.intercalate_cons_of_ne_nil hrest, pieces_append_feed, ih hrest, List.flatMap_cons]

lemma feed_not_mem_headPiece (text : String) : '\n' ∉ (headPiece text).toList := by
  rw [headPiece, String.toList_ofList]
  intro hfeed
  simpa using List.mem_takeWhile_imp hfeed

lemma headPiece_eq_iff {text : String} : headPiece text = text ↔ '\n' ∉ text.toList := by
  constructor
  · intro h
    exact h ▸ feed_not_mem_headPiece text
  · intro h
    rw [← String.toList_inj, headPiece, String.toList_ofList, List.takeWhile_eq_self_iff]
    intro c hc
    rw [decide_eq_true_eq]
    rintro rfl
    exact h hc

lemma exists_eq_headPiece_append {text : String} (h : '\n' ∈ text.toList) :
    ∃ rest, text = headPiece text ++ "\n" ++ rest := by
  obtain ⟨front, rest, hchars, hfront⟩ := List.eq_append_cons_of_mem h
  have hhead : text.toList.takeWhile (· ≠ '\n') = front := by
    rw [hchars, List.takeWhile_append_of_pos fun c hc => ?_, List.takeWhile_cons_of_neg (by simp),
      List.append_nil]
    rw [decide_eq_true_eq]
    rintro rfl
    exact hfront hc
  refine ⟨.ofList rest, ?_⟩
  rw [← String.toList_inj, headPiece, hhead]
  simpa using hchars

/-- What stands in front of a quoted text shares the line of its first piece. -/
lemma pieces_append {front : String} (h : '\n' ∉ front.toList) (text : String) :
    pieces (front ++ text) = (front ++ headPiece text) :: (pieces text).tail := by
  by_cases hfeed : '\n' ∈ text.toList
  · obtain ⟨rest, hrest⟩ := exists_eq_headPiece_append hfeed
    have hhead := feed_not_mem_headPiece text
    have hfirst : '\n' ∉ (front ++ headPiece text).toList := by simp [h, hhead]
    have htail : (pieces text).tail = pieces rest := by
      rw [hrest, pieces_append_feed, pieces_of_not_mem hhead]
      rfl
    rw [htail]
    conv_lhs => rw [hrest, ← String.append_assoc, ← String.append_assoc]
    rw [pieces_append_feed, pieces_of_not_mem hfirst]
    rfl
  · have hwhole : '\n' ∉ (front ++ text).toList := by simp [h, hfeed]
    rw [pieces_of_not_mem hwhole, pieces_of_not_mem hfeed, headPiece_eq_iff.mpr hfeed]
    rfl

end PuzzleGate.Text
