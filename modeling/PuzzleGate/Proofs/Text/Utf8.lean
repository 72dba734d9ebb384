import Mathlib.Algebra.GroupWithZero.Nat
import Mathlib.Data.List.Basic
import PuzzleGate.Text.Utf8

/-!
# Bytes and characters

A text is counted in the bytes of its UTF-8 form. Every character has at least one byte, so a
byte offset that lies between characters splits a text in one way only.
-/

namespace PuzzleGate.Text

/-- The number of bytes of the characters. -/
def byteSize (s : List Char) : Nat := (s.map Char.utf8Size).sum

@[simp] lemma byteSize_nil : byteSize [] = 0 := rfl

@[simp] lemma byteSize_cons (c : Char) (s : List Char) :
    byteSize (c :: s) = c.utf8Size + byteSize s := by
  simp [byteSize]

@[simp] lemma byteSize_append (s t : List Char) :
    byteSize (s ++ t) = byteSize s + byteSize t := by
  simp [byteSize]

lemma utf8ByteSize_ofList (s : List Char) : (String.ofList s).utf8ByteSize = byteSize s := by
  induction s with
  | nil => rfl
  | cons c s ih =>
    rw [← List.singleton_append, String.ofList_append, String.utf8ByteSize_append, ih,
      byteSize_append]
    simp [String.ofList, List.utf8Encode_singleton, String.utf8ByteSize, byteSize]

lemma utf8ByteSize_eq (s : String) : s.utf8ByteSize = byteSize s.toList := by
  rw [← utf8ByteSize_ofList, String.ofList_toList]

lemma byteSize_eq_zero {s : List Char} (h : byteSize s = 0) : s = [] := by
  cases s with
  | nil => rfl
  | cons c s =>
    have hc := c.utf8Size_pos
    rw [byteSize_cons] at h
    omega

lemma exists_append_of_byteSize_le {front rest front' rest' : List Char}
    (h : front ++ rest = front' ++ rest') (hle : byteSize front ≤ byteSize front') :
    ∃ mid, front' = front ++ mid ∧ rest = mid ++ rest' := by
  rcases List.append_eq_append_iff.mp h with ⟨mid, hfront, hrest⟩ | ⟨mid, hfront, hrest⟩
  · exact ⟨mid, hfront, hrest⟩
  · rw [hfront, byteSize_append] at hle
    obtain rfl := byteSize_eq_zero (s := mid) (by omega)
    exact ⟨[], by simpa using hfront.symm, by simpa using hrest.symm⟩

lemma append_inj_of_byteSize_eq {front rest front' rest' : List Char}
    (h : front ++ rest = front' ++ rest') (heq : byteSize front = byteSize front') :
    front = front' ∧ rest = rest' := by
  obtain ⟨mid, hfront, hrest⟩ := exists_append_of_byteSize_le h (Nat.le_of_eq heq)
  rw [hfront, byteSize_append] at heq
  obtain rfl := byteSize_eq_zero (s := mid) (by omega)
  exact ⟨by simpa using hfront.symm, by simpa using hrest⟩

lemma data_encode (s : String) : (Utf8.encode s).data.toList = Utf8.bytes s := by
  have hbytes : Utf8.encode s = (s.toList.flatMap String.utf8EncodeChar).toByteArray := by
    conv_lhs => rw [← String.ofList_toList (s := s)]
    rfl
  rw [hbytes, List.toList_data_toByteArray, Utf8.bytes]

lemma decode_eq_ok_iff {bytes : ByteArray} {text : String} :
    Utf8.decode bytes = .ok text ↔ bytes = Utf8.encode text := by
  constructor
  · intro h
    unfold Utf8.decode at h
    split at h
    · rename_i found hfound
      obtain rfl := Except.ok.inj h
      unfold String.fromUTF8? at hfound
      split at hfound
      · obtain rfl := Option.some.inj hfound
        rfl
      · cases hfound
    · cases h
  · rintro rfl
    exact Utf8.decode_encode text

theorem text?_eq_some_iff {bytes : List UInt8} {text : String} :
    Utf8.text? bytes = some text ↔ bytes = Utf8.bytes text := by
  have hdecode : Utf8.text? bytes = some text ↔ Utf8.decode ⟨bytes.toArray⟩ = .ok text := by
    unfold Utf8.text? Utf8.decode
    cases String.fromUTF8? ⟨bytes.toArray⟩ <;> simp
  rw [hdecode, decode_eq_ok_iff, ← data_encode]
  constructor
  · intro h
    rw [← h]
  · rintro rfl
    rfl

@[simp] lemma text?_bytes (text : String) : Utf8.text? (Utf8.bytes text) = some text :=
  text?_eq_some_iff.mpr rfl

lemma bytes_inj {a b : String} (h : Utf8.bytes a = Utf8.bytes b) : a = b := by
  have htext := text?_bytes a
  rw [h, text?_bytes] at htext
  exact (Option.some.inj htext).symm

lemma bytes_append (a b : String) : Utf8.bytes (a ++ b) = Utf8.bytes a ++ Utf8.bytes b := by
  rw [Utf8.bytes, String.toList_append, List.flatMap_append]
  rfl

end PuzzleGate.Text
