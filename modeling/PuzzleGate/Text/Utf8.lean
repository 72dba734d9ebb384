/-!
# Bytes read as UTF-8

`decode` accepts exactly the byte sequences that are UTF-8. When it refuses one, the fault names
the first place where no character can be read and how many bytes there could still have begun
one. `lossy` reads on after such a place and marks it by U+FFFD.
-/

namespace PuzzleGate.Text.Utf8

/-- Why bytes are not UTF-8. -/
inductive Fault where
  /-- The `length` bytes from `index` begin no character. -/
  | invalid (length index : Nat)
  /-- The bytes from `index` on begin a character that the input does not finish. -/
  | incomplete (index : Nat)
deriving DecidableEq, Repr

def Fault.message : Fault → String
  | .invalid length index => s!"invalid utf-8 sequence of {length} bytes from index {index}"
  | .incomplete index => s!"incomplete utf-8 byte sequence from index {index}"

/-- What stands at the front of a byte sequence. -/
inductive Front where
  | char (c : Char) (width : Nat)
  | invalid (length : Nat)
  | incomplete

def isContinuation (b : UInt8) : Bool := 0x80 ≤ b && b ≤ 0xbf

/-- The bytes that may stand second in a character of three or four bytes with the given first
byte: the ranges leave out overlong forms, surrogates and numbers above U+10FFFF. -/
def isSecond (first second : UInt8) : Bool :=
  if first = 0xe0 then 0xa0 ≤ second && second ≤ 0xbf
  else if first = 0xed then 0x80 ≤ second && second ≤ 0x9f
  else if first = 0xf0 then 0x90 ≤ second && second ≤ 0xbf
  else if first = 0xf4 then 0x80 ≤ second && second ≤ 0x8f
  else isContinuation second

def low (b : UInt8) : Nat := b.toNat % 64

/-- The number of bytes a character with this first byte has, or zero if none begins so. -/
def width (first : UInt8) : Nat :=
  if first < 0x80 then 1
  else if 0xc2 ≤ first && first ≤ 0xdf then 2
  else if 0xe0 ≤ first && first ≤ 0xef then 3
  else if 0xf0 ≤ first && first ≤ 0xf4 then 4
  else 0

/-- The character at the front of a nonempty sequence, given as first byte and rest. -/
def front (first : UInt8) (rest : List UInt8) : Front :=
  match width first, rest with
  | 1, _ => .char (.ofNat first.toNat) 1
  | 2, [] => .incomplete
  | 2, b :: _ =>
    if isContinuation b then .char (.ofNat (first.toNat % 32 * 64 + low b)) 2 else .invalid 1
  | 3, [] => .incomplete
  | 3, b :: rest =>
    if !isSecond first b then .invalid 1 else match rest with
    | [] => .incomplete
    | c :: _ =>
      if !isContinuation c then .invalid 2
      else .char (.ofNat (first.toNat % 16 * 4096 + low b * 64 + low c)) 3
  | 4, [] => .incomplete
  | 4, b :: rest =>
    if !isSecond first b then .invalid 1 else match rest with
    | [] => .incomplete
    | c :: rest =>
      if !isContinuation c then .invalid 2 else match rest with
      | [] => .incomplete
      | d :: _ =>
        if !isContinuation d then .invalid 3
        else .char (.ofNat (first.toNat % 8 * 262144 + low b * 4096 + low c * 64 + low d)) 4
  | _, _ => .invalid 1

/-- The first fault at or after `index`, where `skip` bytes still belong to a character. -/
def faultFrom : (skip index : Nat) → List UInt8 → Fault
  | _, index, [] => .incomplete index
  | skip + 1, index, _ :: rest => faultFrom skip (index + 1) rest
  | 0, index, first :: rest =>
    match front first rest with
    | .char _ width => faultFrom (width - 1) (index + 1) rest
    | .invalid length => .invalid length index
    | .incomplete => .incomplete index

def decode (bytes : ByteArray) : Except Fault String :=
  match String.fromUTF8? bytes with
  | some text => .ok text
  | none => .error (faultFrom 0 0 bytes.toList)

/-- Reads every character that can be read, with U+FFFD for each sequence that cannot. -/
def lossyFrom : (skip : Nat) → List UInt8 → List Char
  | _, [] => []
  | skip + 1, _ :: rest => lossyFrom skip rest
  | 0, first :: rest =>
    match front first rest with
    | .char c width => c :: lossyFrom (width - 1) rest
    | .invalid length => '\ufffd' :: lossyFrom (length - 1) rest
    | .incomplete => ['\ufffd']

def lossy (bytes : List UInt8) : String := .ofList (lossyFrom 0 bytes)

def decodeLossy (bytes : ByteArray) : String := lossy bytes.data.toList

def encode (text : String) : ByteArray := text.toByteArray

/-- The bytes of the UTF-8 form. -/
def bytes (text : String) : List UInt8 := text.toList.flatMap String.utf8EncodeChar

/-- The text of these bytes, if they are UTF-8. -/
def text? (bytes : List UInt8) : Option String := String.fromUTF8? ⟨bytes.toArray⟩

theorem decode_encode (text : String) : decode (encode text) = .ok text := by
  have h : String.fromUTF8? text.toByteArray = some text := by
    simp only [String.fromUTF8?, text.isValidUTF8, dite_true]
    rfl
  simp [decode, encode, h]

end PuzzleGate.Text.Utf8
