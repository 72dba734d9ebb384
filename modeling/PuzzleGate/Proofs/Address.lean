import Mathlib.Data.List.Basic
import PuzzleGate.Address

/-!
# Addresses by their characters

The digits of an address are tested as bytes. No byte of a character beyond ASCII is a digit, so
the bytes of an address are its characters one by one.
-/

namespace PuzzleGate

/-- The hexadecimal digits, in either letter case. -/
def IsHexDigit (c : Char) : Prop :=
  ('0' ≤ c ∧ c ≤ '9') ∨ ('a' ≤ c ∧ c ≤ 'f') ∨ ('A' ≤ c ∧ c ≤ 'F')

/-- The text is `0x` and forty hexadecimal digits. -/
def IsAddress (text : String) : Prop :=
  ∃ digits, text.toList = '0' :: 'x' :: digits ∧ digits.length = 40 ∧ ∀ c ∈ digits, IsHexDigit c

lemma isHexDigit_iff {c : Char} : IsHexDigit c ↔
    (48 ≤ c.toNat ∧ c.toNat ≤ 57) ∨ (97 ≤ c.toNat ∧ c.toNat ≤ 102) ∨
      (65 ≤ c.toNat ∧ c.toNat ≤ 70) := by
  have hle (a b : Char) : a ≤ b ↔ a.toNat ≤ b.toNat := by
    rw [Char.le_def, UInt32.le_iff_toNat_le]
    rfl
  unfold IsHexDigit
  simp only [hle]
  rfl

lemma isHexByte_iff {b : UInt8} : isHexByte b = true ↔
    (48 ≤ b.toNat ∧ b.toNat ≤ 57) ∨ (97 ≤ b.toNat ∧ b.toNat ≤ 102) ∨
      (65 ≤ b.toNat ∧ b.toNat ≤ 70) := by
  simp [isHexByte, UInt8.le_iff_toNat_le, or_assoc]

lemma utf8EncodeChar_of_lt {c : Char} {b : UInt8} {bytes : List UInt8}
    (h : String.utf8EncodeChar c = b :: bytes) (hb : b.toNat < 128) :
    bytes = [] ∧ c.toNat = b.toNat := by
  have hc : c.toNat = c.val.toNat := rfl
  unfold String.utf8EncodeChar at h
  dsimp only at h
  split_ifs at h
  · obtain ⟨rfl, rfl⟩ := List.cons.inj h
    rw [UInt8.toNat_ofNat']
    refine ⟨rfl, ?_⟩
    omega
  all_goals
    obtain ⟨rfl, -⟩ := List.cons.inj h
    rw [UInt8.toNat_ofNat'] at hb
    omega

lemma utf8EncodeChar_ascii {c : Char} (hc : c.toNat < 128) :
    String.utf8EncodeChar c = [UInt8.ofNat c.toNat] := by
  have hle : c.val.toNat ≤ 0x7f := Nat.le_of_lt_succ hc
  unfold String.utf8EncodeChar
  exact if_pos hle

lemma exists_cons_of_flatMap_utf8 {s : List Char} {b : UInt8} {bytes : List UInt8}
    (h : s.flatMap String.utf8EncodeChar = b :: bytes) (hb : b.toNat < 128) :
    ∃ c rest, s = c :: rest ∧ c.toNat = b.toNat ∧
      rest.flatMap String.utf8EncodeChar = bytes := by
  cases s with
  | nil => simp at h
  | cons c rest =>
    obtain ⟨b', bytes', hc⟩ := List.exists_cons_of_ne_nil (@String.utf8EncodeChar_ne_nil c)
    rw [List.flatMap_cons, hc, List.cons_append] at h
    obtain ⟨rfl, hrest⟩ := List.cons.inj h
    obtain ⟨rfl, heq⟩ := utf8EncodeChar_of_lt hc hb
    exact ⟨c, rest, rfl, heq, hrest⟩

lemma flatMap_utf8_of_isHexDigit {digits : List Char} (h : ∀ c ∈ digits, IsHexDigit c) :
    (digits.flatMap String.utf8EncodeChar).length = digits.length ∧
      (digits.flatMap String.utf8EncodeChar).all isHexByte = true := by
  induction digits with
  | nil => exact ⟨rfl, rfl⟩
  | cons c digits ih =>
    have hc := isHexDigit_iff.mp (h c (List.mem_cons_self ..))
    obtain ⟨hlength, hall⟩ := ih fun d hd => h d (List.mem_cons_of_mem _ hd)
    have hbyte : isHexByte (UInt8.ofNat c.toNat) = true := by
      rw [isHexByte_iff, UInt8.toNat_ofNat']
      omega
    rw [List.flatMap_cons, utf8EncodeChar_ascii (by omega), List.singleton_append]
    simp [hlength, hbyte, hall]

lemma isHexDigit_of_flatMap_utf8 {digits : List Char}
    (h : (digits.flatMap String.utf8EncodeChar).all isHexByte = true) :
    ∀ c ∈ digits, IsHexDigit c := by
  induction digits with
  | nil => simp
  | cons c digits ih =>
    obtain ⟨b, bytes, hc⟩ := List.exists_cons_of_ne_nil (@String.utf8EncodeChar_ne_nil c)
    rw [List.flatMap_cons, List.all_append, Bool.and_eq_true] at h
    obtain ⟨hfirst, hrest⟩ := h
    rw [hc, List.all_cons, Bool.and_eq_true] at hfirst
    have hb := isHexByte_iff.mp hfirst.1
    obtain ⟨-, heq⟩ := utf8EncodeChar_of_lt hc (by omega)
    intro d hd
    rcases List.mem_cons.mp hd with rfl | hd
    · rw [isHexDigit_iff, heq]
      exact hb
    · exact ih hrest d hd

/-- Testing the bytes is testing the characters. -/
theorem isAddress_iff {text : String} : isAddress text = true ↔ IsAddress text := by
  have hstart : Text.Utf8.bytes addressStart = [48, 120] := by decide
  constructor
  · intro h
    unfold isAddress at h
    split at h
    · rename_i bytes hprefix
      rw [Bool.and_eq_true, beq_iff_eq] at h
      obtain ⟨hlength, hall⟩ := h
      have hbytes := (List.isPrefixOf?_eq_some_iff_append_eq.mp hprefix).symm
      rw [hstart] at hbytes
      obtain ⟨zero, rest, htext, hzero, hrest⟩ := exists_cons_of_flatMap_utf8 hbytes (by decide)
      obtain ⟨x, digits, rfl, hx, rfl⟩ := exists_cons_of_flatMap_utf8 hrest (by decide)
      have hdigits := isHexDigit_of_flatMap_utf8 hall
      obtain rfl : zero = '0' := Char.toNat_inj.mp hzero
      obtain rfl : x = 'x' := Char.toNat_inj.mp hx
      refine ⟨digits, htext, ?_, hdigits⟩
      rw [← (flatMap_utf8_of_isHexDigit hdigits).1, hlength]
      rfl
    · cases h
  · rintro ⟨digits, htext, hlength, hdigits⟩
    obtain ⟨hbytes, hall⟩ := flatMap_utf8_of_isHexDigit hdigits
    have hprefix : (Text.Utf8.bytes addressStart).isPrefixOf? (Text.Utf8.bytes text) =
        some (digits.flatMap String.utf8EncodeChar) := by
      rw [List.isPrefixOf?_eq_some_iff_append_eq, hstart, Text.Utf8.bytes, htext]
      rfl
    simp [isAddress, hprefix, hbytes, hlength, hall, addressDigits]

lemma Address.ofString?_eq_some {text : String} {address : Address} :
    Address.ofString? text = some address ↔ text = address.text := by
  rw [Address.ofString?, Option.dite_none_right_eq_some]
  constructor
  · rintro ⟨hvalid, haddress⟩
    rw [← Option.some.inj haddress]
  · rintro rfl
    exact ⟨address.valid, rfl⟩

end PuzzleGate
