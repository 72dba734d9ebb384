import PuzzleGate.Call.Basic
import PuzzleGate.Text.Slice

/-!
# Names as slices

The name in the text of a call is a part of that text. Its quotes are cut off by byte offsets, so
whether there is a name at all depends on where these offsets lie.
-/

namespace PuzzleGate.Call

/-- What stands behind the opening of a call. -/
def operandOf (raw : String) : String := .ofList (stripOpening raw.toList)

/-- The text begins with one quote and ends with another. -/
def IsQuoted (text : String) : Prop :=
  2 ≤ text.utf8ByteSize ∧ text.toList.head? = some '"' ∧ text.toList.getLast? = some '"'

instance (text : String) : Decidable (IsQuoted text) := inferInstanceAs (Decidable (_ ∧ _))

/-- The element's name in the text of a call, if the quotes can be cut off by their offsets. -/
def normalizeSlice? (raw : String) : Option String :=
  let operand := operandOf raw
  if IsQuoted operand then Text.slice? operand 1 (operand.utf8ByteSize - 1)
  else some (.ofList ((components.isPrefixOf? operand.toList).getD operand.toList))

end PuzzleGate.Call
