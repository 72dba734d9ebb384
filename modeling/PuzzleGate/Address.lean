import PuzzleGate.Json.Decode
import PuzzleGate.Text.Utf8

/-!
# Account addresses

An address is `0x` and forty hexadecimal digits in either letter case. The digits are counted and
tested as bytes. Two addresses are the same only when their texts are.
-/

namespace PuzzleGate

/-- The bytes of the digits `0` to `9`, `a` to `f` and `A` to `F`. -/
def isHexByte (b : UInt8) : Bool :=
  (48 ≤ b && b ≤ 57) || (97 ≤ b && b ≤ 102) || (65 ≤ b && b ≤ 70)

def addressStart : String := "0x"

def addressDigits : Nat := 40

def isAddress (text : String) : Bool :=
  match (Text.Utf8.bytes addressStart).isPrefixOf? (Text.Utf8.bytes text) with
  | some digits => digits.length == addressDigits && digits.all isHexByte
  | none => false

/-- A text that is an address. -/
structure Address where
  text : String
  valid : isAddress text = true
deriving DecidableEq

def Address.ofString? (text : String) : Option Address :=
  if h : isAddress text = true then some ⟨text, h⟩ else none

open Reading Json

def Address.ofTree (tree : Tree) : Except Problem Address := do
  let text ← tree.asString
  match Address.ofString? text with
  | some address => .ok address
  | none => .error (.badAddress text)

end PuzzleGate
