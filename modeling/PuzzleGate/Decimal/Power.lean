/-!
# Powers of two and ten

The sizes of binary numbers are powers of two, the places of decimal ones powers of ten.
-/

namespace PuzzleGate.Decimal

def powerOfTwo (k : Nat) : Nat := Nat.pow 2 k

def powerOfTen (k : Nat) : Nat := Nat.pow 10 k

end PuzzleGate.Decimal
