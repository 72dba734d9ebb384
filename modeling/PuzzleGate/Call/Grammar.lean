import PuzzleGate.Call.Basic

/-!
# The grammar of calls

`Derives` states which texts are calls, rule by rule and apart from any way of finding them. A
text may be a call in more than one shape, and a call may be the front of a longer one.
-/

namespace PuzzleGate.Call

def IsName (name : List Char) : Prop :=
  name ≠ [] ∧ ∀ c ∈ name, isNameChar c = true

/-- `Derives wrapper shape name text` says that the text is a call of this wrapper whose operand
gives the name in this shape. -/
inductive Derives : Wrapper → Shape → List Char → List Char → Prop where
  | member (wrapper : Wrapper) (name : List Char) (h : IsName name) :
      Derives wrapper .member name (wrapper.opening ++ components ++ name)
  | literal (wrapper : Wrapper) (name : List Char) (h : IsName name) :
      Derives wrapper .literal name (wrapper.opening ++ '"' :: name ++ ['"'])
  | ident (wrapper : Wrapper) (name : List Char) (h : IsName name) :
      Derives wrapper .ident name (wrapper.opening ++ name)

def IsCall (text : List Char) : Prop :=
  ∃ wrapper shape name, Derives wrapper shape name text

def Begins (text : List Char) : Prop :=
  ∃ call rest, text = call ++ rest ∧ IsCall call

/-- The text has a call from byte `start` to byte `stop`. -/
def CallAt (text : String) (start stop : Nat) : Prop :=
  ∃ front call rest : String, text = front ++ call ++ rest ∧ IsCall call.toList ∧
    start = front.utf8ByteSize ∧ stop = start + call.utf8ByteSize

/-- The longest call that begins at byte `start`. -/
def LongestCallAt (text : String) (start : Nat) (call : String) : Prop :=
  ∃ front rest : String, text = front ++ call ++ rest ∧ IsCall call.toList ∧
    start = front.utf8ByteSize ∧ ∀ stop, CallAt text start stop → stop ≤ start + call.utf8ByteSize

end PuzzleGate.Call
