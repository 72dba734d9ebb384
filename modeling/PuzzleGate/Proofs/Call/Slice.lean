import PuzzleGate.Call.Slice
import PuzzleGate.Proofs.Call.Front
import PuzzleGate.Proofs.Text.Utf8

/-!
# Reading back any text

A call can be written with any text in the place of a name. It is read back as that text, unless the
text stands in the call as it is and looks like an operand of another shape. Cutting off quotes
never fails: a quote is one byte long, so the offsets behind the first and in front of the last one
are boundaries.
-/

namespace PuzzleGate

namespace Text

lemma isBoundary_append (front back : String) :
    IsBoundary (front ++ back) front.utf8ByteSize :=
  String.Pos.Raw.isValid_iff_exists_append.mpr ⟨front, back, rfl, rfl⟩

/-- A text that is made of three has the middle one between the offsets where that begins and
ends. -/
theorem slice?_append (front part back : String) :
    slice? (front ++ part ++ back) front.utf8ByteSize (front ++ part).utf8ByteSize =
      some part := by
  have hstart : IsBoundary (front ++ part ++ back) front.utf8ByteSize := by
    rw [String.append_assoc]
    exact isBoundary_append front (part ++ back)
  have hstop := isBoundary_append (front ++ part) back
  have hle : front.utf8ByteSize ≤ (front ++ part).utf8ByteSize := by
    rw [String.utf8ByteSize_append]
    exact Nat.le_add_right _ _
  have hbytes : (front ++ part ++ back).toByteArray.extract front.utf8ByteSize
      (front ++ part).utf8ByteSize = part.toByteArray := by
    rw [String.toByteArray_append, ← String.size_toByteArray (s := front ++ part),
      ByteArray.extract_append_size_left, String.toByteArray_append]
    exact ByteArray.extract_append_eq_right rfl ByteArray.size_append
  rw [slice?, if_pos ⟨hle, hstart, hstop⟩, hbytes, String.fromUTF8?, dif_pos part.isValidUTF8]
  rfl

end Text

namespace Call

open Text

lemma isQuoted_iff {text : String} :
    IsQuoted text ↔ ∃ name : String, text = "\"" ++ name ++ "\"" := by
  constructor
  · rintro ⟨hsize, hfirst, hlast⟩
    obtain ⟨rest, hrest⟩ := List.head?_eq_some_iff.mp hfirst
    rw [utf8ByteSize_eq, hrest, byteSize_cons] at hsize
    have hne : rest ≠ [] := by
      rintro rfl
      exact absurd hsize (by decide)
    rw [hrest, List.getLast?_cons_of_ne_nil hne] at hlast
    refine ⟨.ofList rest.dropLast, String.toList_inj.mp ?_⟩
    simp [hrest, List.dropLast_append_getLast? _ hlast]
  · rintro ⟨name, rfl⟩
    have hquote : "\"".utf8ByteSize = 1 := rfl
    refine ⟨?_, by simp, ?_⟩
    · rw [String.utf8ByteSize_append, String.utf8ByteSize_append, hquote]
      omega
    · rw [String.toList_append]
      exact List.getLast?_concat

lemma exists_unquote?_iff {text : String} :
    (∃ name, unquote? text.toList = some name) ↔ IsQuoted text := by
  rw [isQuoted_iff]
  constructor
  · rintro ⟨name, hname⟩
    refine ⟨.ofList name, String.toList_inj.mp ?_⟩
    simp [unquote?_eq_some.mp hname]
  · rintro ⟨name, rfl⟩
    exact ⟨name.toList, unquote?_eq_some.mpr (by simp)⟩

/-- An operand names itself unless it is in quotes or begins with the mark of the components
table: what is taken off leaves less than there was. -/
lemma operandName_eq_self_iff {text : String} :
    operandName text.toList = text.toList ↔ ¬ (IsQuoted text ∨ components <+: text.toList) := by
  rw [← exists_unquote?_iff, operandName]
  cases hunquote : unquote? text.toList with
  | some name =>
    have hquoted := unquote?_eq_some.mp hunquote
    have hne : name ≠ text.toList := fun h => by
      have hlength := congrArg List.length (h.trans hquoted)
      rw [List.length_append, List.length_cons] at hlength
      omega
    simp [hne]
  | none =>
    cases hmark : components.isPrefixOf? text.toList with
    | some name =>
      have happend := isPrefixOf?_eq_some.mp hmark
      have hne : name ≠ text.toList := fun h => by
        have hlength := congrArg List.length (h.trans happend)
        simp only [components_eq, List.length_append, List.length_cons] at hlength
        omega
      have hprefix : components <+: text.toList := ⟨name, happend.symm⟩
      simp [hne, hprefix]
    | none =>
      have hnot : ¬ components <+: text.toList := by
        rintro ⟨name, hname⟩
        rw [isPrefixOf?_eq_some.mpr hname.symm] at hmark
        cases hmark
      simp [hnot]

lemma normalize_wrap_eq (wrapper : Wrapper) (shape : Shape) (name : String) :
    normalize (wrap wrapper shape name) = .ofList (operandName (shape.operand name.toList)) := by
  rw [normalize, wrap, String.toList_ofList, normalizeChars, wrapChars, stripOpening_append]

lemma normalize_wrap_eq_self_iff {wrapper : Wrapper} {shape : Shape} {name : String} :
    normalize (wrap wrapper shape name) = name ↔
      ¬ (shape = .ident ∧ (IsQuoted name ∨ components <+: name.toList)) := by
  rw [normalize_wrap_eq]
  cases shape with
  | member => simp [operandName_member]
  | literal => simp [operandName_literal]
  | ident =>
    rw [← String.toList_inj, String.toList_ofList, Shape.operand, operandName_eq_self_iff]
    simp

lemma utf8ByteSize_quoted_sub (name : String) :
    ("\"" ++ name ++ "\"").utf8ByteSize - 1 = ("\"" ++ name).utf8ByteSize := by
  have hquote : "\"".utf8ByteSize = 1 := rfl
  rw [String.utf8ByteSize_append, hquote, Nat.add_sub_cancel]

lemma boundaries_of_isQuoted {text : String} (h : IsQuoted text) :
    1 ≤ text.utf8ByteSize - 1 ∧ IsBoundary text 1 ∧ IsBoundary text (text.utf8ByteSize - 1) := by
  refine ⟨Nat.le_sub_of_add_le h.1, ?_, ?_⟩
  · obtain ⟨name, rfl⟩ := isQuoted_iff.mp h
    rw [String.append_assoc]
    exact isBoundary_append "\"" (name ++ "\"")
  · obtain ⟨name, rfl⟩ := isQuoted_iff.mp h
    rw [utf8ByteSize_quoted_sub]
    exact isBoundary_append ("\"" ++ name) "\""

/-- Cutting quotes off by their offsets gives the name that is read character by character. -/
theorem normalizeSlice?_eq (raw : String) : normalizeSlice? raw = some (normalize raw) := by
  have hoperand : normalizeChars raw.toList = operandName (operandOf raw).toList := by
    rw [operandOf, String.toList_ofList, normalizeChars]
  rw [normalize, hoperand, normalizeSlice?]
  split_ifs with hquoted
  · obtain ⟨name, hname⟩ := isQuoted_iff.mp hquoted
    have hunquote : unquote? (operandOf raw).toList = some name.toList :=
      unquote?_eq_some.mpr (by simp [hname])
    have hslice : slice? (operandOf raw) 1 ((operandOf raw).utf8ByteSize - 1) = some name := by
      rw [hname, utf8ByteSize_quoted_sub]
      exact slice?_append "\"" name "\""
    rw [hslice, operandName, hunquote, String.ofList_toList]
  · have hunquote : unquote? (operandOf raw).toList = none := by
      rw [← exists_unquote?_iff, not_exists] at hquoted
      exact Option.eq_none_iff_forall_ne_some.mpr hquoted
    rw [operandName, hunquote]

/-- A call is read back as the text it was written with, unless that text stands in it as it is and
is in quotes or begins with the mark of the components table. Every text gives a name: where there
are quotes to cut off, the offsets at which they are cut off are in order and are boundaries. -/
theorem any_text_is_read_back :
    (∀ (wrapper : Wrapper) (shape : Shape) (name : String),
      normalize (wrap wrapper shape name) = name ↔
        ¬ (shape = .ident ∧ (IsQuoted name ∨ components <+: name.toList))) ∧
    ∀ raw : String, normalizeSlice? raw = some (normalize raw) ∧
      let operand := operandOf raw
      (IsQuoted operand → 1 ≤ operand.utf8ByteSize - 1 ∧ IsBoundary operand 1 ∧
        IsBoundary operand (operand.utf8ByteSize - 1)) :=
  ⟨fun _ _ _ => normalize_wrap_eq_self_iff,
    fun raw => ⟨normalizeSlice?_eq raw, boundaries_of_isQuoted⟩⟩

/-- A name that is not ASCII is cut out of its quotes as a whole, and a component that is called by
one quote keeps it. -/
theorem any_text_is_read_back_accent :
    let operand := operandOf "_jsxs(\"é\""
    IsQuoted operand ∧ IsBoundary operand 1 ∧ IsBoundary operand 3 ∧
      normalizeSlice? "_jsxs(\"é\"" = some "é" ∧ normalize (wrap .single .ident "\"") = "\"" := by
  obtain ⟨hwrap, hslice⟩ := any_text_is_read_back
  intro operand
  have hquoted : IsQuoted operand := by decide +kernel
  obtain ⟨hname, hboundaries⟩ := hslice "_jsxs(\"é\""
  have hsize : operand.utf8ByteSize - 1 = 3 := by decide +kernel
  obtain ⟨-, hstart, hstop⟩ := hboundaries hquoted
  refine ⟨hquoted, hstart, hsize ▸ hstop, ?_, (hwrap .single .ident "\"").mpr (by decide +kernel)⟩
  rw [hname]
  decide +kernel

end Call

end PuzzleGate
