/-!
# Slices of texts

A slice of a text is given by byte offsets into its UTF-8 form. Not every pair of offsets gives one:
both must lie between characters.
-/

namespace PuzzleGate.Text

/-- The offset is in the text and does not lie inside a character. -/
def IsBoundary (text : String) (offset : Nat) : Prop := String.Pos.Raw.IsValid text ⟨offset⟩

instance (text : String) (offset : Nat) : Decidable (IsBoundary text offset) :=
  inferInstanceAs (Decidable (String.Pos.Raw.IsValid ..))

/-- The part of a text between two byte offsets, if they are in order and are boundaries. -/
def slice? (text : String) (start stop : Nat) : Option String :=
  if start ≤ stop ∧ IsBoundary text start ∧ IsBoundary text stop then
    String.fromUTF8? (text.toByteArray.extract start stop)
  else none

end PuzzleGate.Text
