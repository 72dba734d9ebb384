import Mathlib.Data.List.Basic
import PuzzleGate.Text.Lines

/-!
# Splitting a text at a character

A text is either one piece or a first piece, the separator and the text behind it. For lines this is
an induction on the text, and it tells which parts of a text its lines are.
-/

namespace PuzzleGate.Text

lemma splitOn_eq {α : Type} [DecidableEq α] (sep : α) (s : List α) :
    splitOn sep s = s.splitOn sep := by
  induction s with
  | nil => rfl
  | cons c s ih =>
    rw [splitOn, List.splitOn_cons_eq_if_modifyHead, ih]
    by_cases hc : c = sep
    · simp [hc]
    · obtain ⟨piece, pieces, hpieces⟩ :=
        List.exists_cons_of_ne_nil (List.splitOn_ne_nil sep s)
      simp [hc, hpieces]

lemma not_mem_of_mem_splitOn {α : Type} [DecidableEq α] {sep : α} {s piece : List α}
    (h : piece ∈ splitOn sep s) : sep ∉ piece := by
  induction s generalizing piece with
  | nil =>
    rw [List.mem_singleton.mp h]
    exact List.not_mem_nil
  | cons c s ih =>
    rw [splitOn] at h
    split_ifs at h with hc
    · rcases List.mem_cons.mp h with rfl | hpiece
      · exact List.not_mem_nil
      · exact ih hpiece
    · obtain ⟨first, pieces, hpieces⟩ :=
        List.exists_cons_of_ne_nil (splitOn_eq sep s ▸ List.splitOn_ne_nil sep s)
      rw [hpieces] at h ih
      rcases List.mem_cons.mp h with rfl | hpiece
      · exact List.not_mem_cons_of_ne_of_not_mem (Ne.symm hc) (ih (List.mem_cons_self ..))
      · exact ih (List.mem_cons_of_mem _ hpiece)

/-- What holds of texts without a line feed, and of a text as soon as it holds of what is behind the
first line feed, holds of all texts. -/
@[elab_as_elim]
lemma lines_induction {motive : List Char → Prop}
    (last : ∀ line, '\n' ∉ line → motive line)
    (line : ∀ line rest, '\n' ∉ line → motive rest → motive (line ++ '\n' :: rest))
    (text : List Char) : motive text := by
  induction hlength : text.length using Nat.strongRecOn generalizing text with
  | ind n ih =>
    by_cases hfeed : '\n' ∈ text
    · obtain ⟨first, rest, rfl, hfirst⟩ := List.eq_append_cons_of_mem hfeed
      refine line first rest hfirst (ih rest.length ?_ rest rfl)
      rw [← hlength, List.length_append, List.length_cons]
      omega
    · exact last text hfeed

lemma lines_of_not_mem {line : List Char} (h : '\n' ∉ line) :
    lines line = if line = [] then [] else [line] := by
  rw [lines, splitOn_eq, List.splitOn_eq_singleton h, closeLines]
  simp only [List.isEmpty_iff]

lemma lines_append_cons {line : List Char} (h : '\n' ∉ line) (rest : List Char) :
    lines (line ++ '\n' :: rest) = dropReturn line :: lines rest := by
  obtain ⟨piece, pieces, hpieces⟩ := List.exists_cons_of_ne_nil (List.splitOn_ne_nil '\n' rest)
  rw [lines, lines, splitOn_eq, splitOn_eq, List.splitOn_append_cons_self,
    List.splitOn_eq_singleton h, hpieces]
  rfl

/-- What stands behind a line: the end of the text, unless the line is empty, or a line end. A
carriage return in front of the line feed belongs to the line end. -/
inductive EndsLine (line : List Char) : List Char → Prop
  | text (h : line ≠ []) : EndsLine line []
  | feed (h : line.getLast? ≠ some '\r') (rest : List Char) : EndsLine line ('\n' :: rest)
  | returnFeed (rest : List Char) : EndsLine line ('\r' :: '\n' :: rest)

/-- The line is a line of the text: it begins where the text does or behind a line feed, and has
none itself. -/
def IsLineOf (line text : List Char) : Prop :=
  '\n' ∉ line ∧ ∃ before after, text = before ++ (line ++ after) ∧
    (before = [] ∨ before.getLast? = some '\n') ∧ EndsLine line after

lemma isLineOf_of_not_mem {line text : List Char} (h : '\n' ∉ text) :
    IsLineOf line text ↔ line ≠ [] ∧ line = text := by
  constructor
  · rintro ⟨-, before, after, rfl, hbefore, hafter⟩
    rw [List.mem_append, List.mem_append, not_or, not_or] at h
    have hnil : before = [] :=
      hbefore.resolve_right fun hlast => h.1 (List.mem_of_getLast? hlast)
    cases hafter with
    | text hline => exact ⟨hline, by rw [hnil, List.append_nil, List.nil_append]⟩
    | feed _ rest => exact absurd (List.mem_cons_self ..) h.2.2
    | returnFeed rest => exact absurd (List.mem_cons_of_mem _ (List.mem_cons_self ..)) h.2.2
  · rintro ⟨hline, rfl⟩
    exact ⟨h, [], [], by simp, .inl rfl, .text hline⟩

lemma append_feed_inj {first first' rest rest' : List Char} (h : '\n' ∉ first) (h' : '\n' ∉ first')
    (heq : first ++ '\n' :: rest = first' ++ '\n' :: rest') : first = first' ∧ rest = rest' := by
  have hsplit := congrArg (List.splitOn '\n') heq
  rw [List.splitOn_append_cons_self, List.splitOn_append_cons_self, List.splitOn_eq_singleton h,
    List.splitOn_eq_singleton h'] at hsplit
  obtain rfl := (List.cons.inj hsplit).1
  exact ⟨rfl, (List.cons.inj (List.append_cancel_left heq)).2⟩

lemma append_feed_cases {first rest before tail : List Char} (h : '\n' ∉ first)
    (heq : first ++ '\n' :: rest = before ++ '\n' :: tail) :
    rest = tail ∨ ∃ between, rest = between ++ '\n' :: tail := by
  rcases List.append_eq_append_iff.mp heq with ⟨mid, -, hmid⟩ | ⟨mid, hfirst, hmid⟩
  · cases mid with
    | nil => exact .inl (List.cons.inj hmid).2
    | cons c mid => exact .inr ⟨mid, (List.cons.inj hmid).2⟩
  · cases mid with
    | nil => exact .inl (List.cons.inj hmid).2.symm
    | cons c mid =>
      obtain ⟨rfl, -⟩ := List.cons.inj hmid
      exact absurd (hfirst ▸ List.mem_append_right _ (List.mem_cons_self ..)) h

lemma dropReturn_append (line : List Char) : dropReturn (line ++ ['\r']) = line := by
  simp [dropReturn]

lemma endsLine_dropReturn (first rest : List Char) :
    ∃ after, first ++ '\n' :: rest = dropReturn first ++ after ∧
      EndsLine (dropReturn first) after := by
  rw [dropReturn]
  split
  · rename_i hlast
    refine ⟨'\r' :: '\n' :: rest, ?_, .returnFeed rest⟩
    conv_lhs => rw [← List.dropLast_append_getLast? _ hlast]
    rw [List.append_assoc]
    rfl
  · rename_i hlast
    exact ⟨'\n' :: rest, rfl, .feed hlast rest⟩

lemma isLineOf_append_cons {line first : List Char} (h : '\n' ∉ first) (rest : List Char) :
    IsLineOf line (first ++ '\n' :: rest) ↔ line = dropReturn first ∨ IsLineOf line rest := by
  constructor
  · rintro ⟨hline, before, after, htext, hbefore, hafter⟩
    rcases hbefore with rfl | hlast
    · left
      rw [List.nil_append] at htext
      cases hafter with
      | text _ =>
        rw [List.append_nil] at htext
        exact absurd (htext ▸ List.mem_append_right _ (List.mem_cons_self ..)) hline
      | feed hnot rest' =>
        obtain ⟨rfl, -⟩ := append_feed_inj h hline htext
        rw [dropReturn, if_neg hnot]
      | returnFeed rest' =>
        have hreturn : '\n' ∉ line ++ ['\r'] := by simp [hline]
        obtain ⟨rfl, -⟩ := append_feed_inj h hreturn (by simpa using htext)
        rw [dropReturn_append]
    · right
      rw [← List.dropLast_append_getLast? _ hlast, List.append_assoc, List.singleton_append]
        at htext
      rcases append_feed_cases h htext with hrest | ⟨between, hrest⟩
      · exact ⟨hline, [], after, hrest, .inl rfl, hafter⟩
      · exact ⟨hline, between ++ ['\n'], after, by simp [hrest], .inr List.getLast?_concat, hafter⟩
  · rintro (rfl | ⟨hline, before, after, rfl, hbefore, hafter⟩)
    · obtain ⟨after, htext, hafter⟩ := endsLine_dropReturn first rest
      refine ⟨?_, [], after, htext, .inl rfl, hafter⟩
      rw [dropReturn]
      split
      · exact fun hmem => h ((List.dropLast_sublist first).subset hmem)
      · exact h
    · refine ⟨hline, first ++ '\n' :: before, after, by simp, .inr ?_, hafter⟩
      rcases hbefore with rfl | hlast
      · exact List.getLast?_concat
      · rw [List.getLast?_append, List.getLast?_cons, hlast]
        rfl

/-- The lines are the parts of the text between line ends, but for an empty one at the end. -/
theorem mem_lines_iff {line text : List Char} : line ∈ lines text ↔ IsLineOf line text := by
  induction text using lines_induction with
  | last text htext =>
    rw [lines_of_not_mem htext, isLineOf_of_not_mem htext]
    split
    · rename_i hnil
      simp [hnil]
    · rename_i hne
      rw [List.mem_singleton]
      exact ⟨fun heq => ⟨heq ▸ hne, heq⟩, And.right⟩
  | line first rest hfirst ih =>
    rw [lines_append_cons hfirst, isLineOf_append_cons hfirst, List.mem_cons, ih]

end PuzzleGate.Text
