import Mathlib.Data.List.Basic
import Mathlib.Order.Basic
import PuzzleGate.Text.Utf8

/-!
# The byte order of texts

Texts are compared character by character. That is the same as comparing their UTF-8 forms byte by
byte: a greater character has a greater byte where its form first differs.
-/

namespace PuzzleGate.Text

lemma div_lt_or_mod_lt {m n : Nat} (h : m < n) :
    m / 64 < n / 64 ∨ m / 64 = n / 64 ∧ m % 64 < n % 64 := by
  omega

lemma digits_lt {m n : Nat} (h : m < n) :
    m / 262144 < n / 262144 ∨ m / 262144 = n / 262144 ∧
      (m / 4096 % 64 < n / 4096 % 64 ∨ m / 4096 % 64 = n / 4096 % 64 ∧
        (m / 64 % 64 < n / 64 % 64 ∨ m / 64 % 64 = n / 64 % 64 ∧ m % 64 < n % 64)) := by
  have hdiv (k : Nat) : k / 4096 = k / 64 / 64 ∧ k / 262144 = k / 64 / 64 / 64 := by
    rw [Nat.div_div_eq_div_mul, Nat.div_div_eq_div_mul]
    exact ⟨rfl, rfl⟩
  rw [(hdiv m).1, (hdiv m).2, (hdiv n).1, (hdiv n).2]
  rcases div_lt_or_mod_lt h with h | ⟨heq, hlast⟩
  · rcases div_lt_or_mod_lt h with h | ⟨heq, hlast⟩
    · rcases div_lt_or_mod_lt h with h | ⟨heq, hlast⟩
      · exact .inl h
      · exact .inr ⟨heq, .inl hlast⟩
    · rw [heq]
      exact .inr ⟨rfl, .inr ⟨rfl, .inl hlast⟩⟩
  · rw [heq]
    exact .inr ⟨rfl, .inr ⟨rfl, .inr ⟨rfl, hlast⟩⟩⟩

lemma utf8EncodeChar_lt {c d : Char} (h : c < d) (s t : List UInt8) :
    String.utf8EncodeChar c ++ s < String.utf8EncodeChar d ++ t := by
  have hlt : c.val.toNat < d.val.toNat := h
  have hbound : d.val.toNat < 0x110000 := by
    have hvalid := d.valid
    simp only [UInt32.isValidChar, Nat.isValidChar] at hvalid
    omega
  have hdigits := digits_lt hlt
  unfold String.utf8EncodeChar
  dsimp only
  generalize c.val.toNat = m at *
  generalize d.val.toNat = n at *
  -- a longer form begins with a greater byte, forms of one length are compared digit by digit
  split_ifs
  all_goals
    simp (disch := omega) only [List.cons_append, List.nil_append, List.cons_lt_cons_iff,
      UInt8.lt_iff_toNat_lt, ← UInt8.toNat_inj, UInt8.toNat_ofNat', Nat.mod_eq_of_lt]
  all_goals omega

lemma flatMap_utf8_lt {s t : List Char} (h : s < t) :
    s.flatMap String.utf8EncodeChar < t.flatMap String.utf8EncodeChar := by
  induction s generalizing t with
  | nil =>
    cases t with
    | nil => exact absurd h (List.lt_irrefl [])
    | cons d t =>
      obtain ⟨b, bytes, hd⟩ := List.exists_cons_of_ne_nil (@String.utf8EncodeChar_ne_nil d)
      rw [List.flatMap_cons, hd]
      exact List.nil_lt_cons b _
  | cons c s ih =>
    cases t with
    | nil => exact absurd h (List.not_lt_nil _)
    | cons d t =>
      rw [List.flatMap_cons, List.flatMap_cons]
      rcases List.cons_lt_cons_iff.mp h with hlt | ⟨rfl, hrest⟩
      · exact utf8EncodeChar_lt hlt _ _
      · exact List.append_left_lt (ih hrest)

/-- Texts are in the order of their UTF-8 forms. -/
theorem bytes_lt_iff {a b : String} : Utf8.bytes a < Utf8.bytes b ↔ a < b := by
  have hmono {a b : String} (h : a < b) : Utf8.bytes a < Utf8.bytes b := by
    exact flatMap_utf8_lt (String.lt_iff.mp h)
  refine ⟨fun h => ?_, hmono⟩
  by_contra hnot
  by_cases hlt : b < a
  · exact List.lt_asymm h (hmono hlt)
  · have heq : a = b := String.le_antisymm (String.not_lt.mp hlt) (String.not_lt.mp hnot)
    rw [heq] at h
    exact List.lt_irrefl _ h

lemma bytes_le_iff {a b : String} : Utf8.bytes a ≤ Utf8.bytes b ↔ a ≤ b := by
  rw [← List.not_lt, bytes_lt_iff, String.not_lt]

end PuzzleGate.Text
