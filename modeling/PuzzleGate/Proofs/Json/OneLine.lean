import PuzzleGate.Proofs.Json.Token

/-!
# Written values stay on their line

Line feeds in strings and keys are written as escapes, and nothing else in the text of a value could
end the line.
-/

namespace PuzzleGate

open Decimal

namespace Decimal

lemma feed_not_mem_natDigits (n : Nat) : '\n' ∉ natDigits n := fun h =>
  absurd (Json.isDigit_of_mem_natDigits h) (by decide)

lemma feed_not_mem_zeros (n : Nat) : '\n' ∉ zeros n := fun h =>
  absurd (List.eq_of_mem_replicate h) (by decide)

lemma Digits.feed_not_mem_positional (d : Digits) : '\n' ∉ d.positional := by
  have hdigits := feed_not_mem_natDigits d.digits
  rw [positional]
  split_ifs
  · simp [hdigits, feed_not_mem_zeros]
  · simp only [List.mem_append, List.mem_cons, not_or]
    exact ⟨fun h => hdigits (List.mem_of_mem_take h), by decide,
      fun h => hdigits (List.mem_of_mem_drop h)⟩
  · simp [hdigits, feed_not_mem_zeros]

lemma Digits.feed_not_mem_scientific (d : Digits) : '\n' ∉ d.scientific := by
  have hdigits := feed_not_mem_natDigits d.digits
  have hexponent := feed_not_mem_natDigits (d.place + (natDigits d.digits).length - 1).natAbs
  have hsign {p : Prop} [Decidable p] : (if p then '-' else '+') ≠ '\n' := by
    split_ifs <;> decide
  rw [scientific]
  split
  · rename_i first second rest hbody
    rw [hbody] at hdigits
    simp only [List.mem_cons, not_or] at hdigits
    simp [hdigits, hexponent, hsign.symm]
  · simp [hdigits, hexponent, hsign.symm]

lemma Binary64.feed_not_mem_text (x : Binary64) : '\n' ∉ x.text := by
  have hsigned {s : List Char} (h : '\n' ∉ s) : '\n' ∉ x.signed s := by
    rw [signed]
    split_ifs
    · simp [h]
    · exact h
  refine hsigned ?_
  dsimp only
  split_ifs
  · decide
  · exact x.shortest.feed_not_mem_positional
  · exact x.shortest.feed_not_mem_scientific

end Decimal

namespace Json

lemma Number.feed_not_mem_chars (n : Number) : '\n' ∉ n.chars := by
  cases n with
  | natural n _ => exact feed_not_mem_natDigits n
  | negative n _ => exact List.not_mem_cons_of_ne_of_not_mem (by decide) (feed_not_mem_natDigits _)
  | real x => exact x.feed_not_mem_text

lemma feed_not_mem_escapeChar (c : Char) : '\n' ∉ escapeChar c := by
  rcases escapeChar_cases c with ⟨name, -, hescape, heq⟩ | ⟨hcontrol, heq⟩ | ⟨-, -, hplain, heq⟩
  · rw [heq]
    refine List.not_mem_cons_of_ne_of_not_mem (by decide) fun hname => ?_
    rw [← List.mem_singleton.mp hname] at hescape
    cases hescape
  · have hhex : ∀ n < 0x20, '\n' ∉ [hexDigit (n / 16), hexDigit (n % 16)] := by decide
    have hdigits := hhex c.toNat hcontrol
    rw [heq]
    simpa using hdigits
  · rw [heq, List.mem_singleton]
    rintro rfl
    exact hplain (by decide)

lemma feed_not_mem_stringChars (s : String) : '\n' ∉ stringChars s := by
  simp [stringChars, feed_not_mem_escapeChar]

mutual

theorem Value.feed_not_mem_chars : ∀ value : Value, '\n' ∉ value.chars
  | .null => by decide
  | .bool true => by decide
  | .bool false => by decide
  | .number n => n.feed_not_mem_chars
  | .string s => feed_not_mem_stringChars s
  | .array items => by simp [Value.chars, feed_not_mem_itemsChars items]
  | .object fields => by simp [Value.chars, feed_not_mem_fieldsChars fields]

lemma feed_not_mem_itemsChars : ∀ items : List Value, '\n' ∉ itemsChars items
  | [] => List.not_mem_nil
  | value :: rest => by
    simp [itemsChars, value.feed_not_mem_chars, feed_not_mem_moreItemsChars rest]

lemma feed_not_mem_moreItemsChars : ∀ items : List Value, '\n' ∉ moreItemsChars items
  | [] => List.not_mem_nil
  | value :: rest => by
    simp [moreItemsChars, value.feed_not_mem_chars, feed_not_mem_moreItemsChars rest]

lemma feed_not_mem_fieldsChars : ∀ fields : List (String × Value), '\n' ∉ fieldsChars fields
  | [] => List.not_mem_nil
  | (key, value) :: rest => by
    simp [fieldsChars, feed_not_mem_stringChars key, value.feed_not_mem_chars,
      feed_not_mem_moreFieldsChars rest]

lemma feed_not_mem_moreFieldsChars : ∀ fields : List (String × Value), '\n' ∉ moreFieldsChars fields
  | [] => List.not_mem_nil
  | (key, value) :: rest => by
    simp [moreFieldsChars, feed_not_mem_stringChars key, value.feed_not_mem_chars,
      feed_not_mem_moreFieldsChars rest]

end

theorem Value.feed_not_mem_text (value : Value) : '\n' ∉ value.text.toList := by
  rw [Value.text, String.toList_ofList]
  exact value.feed_not_mem_chars

end Json

end PuzzleGate
