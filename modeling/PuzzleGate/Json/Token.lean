import PuzzleGate.Json.Value

/-!
# JSON tokens

`tokens` splits a text into tokens, up to the first place where none can be read; there the token
`fault` ends the list. A token is read from the front of the remaining text together with its
length, and reading goes on after that many characters.
-/

namespace PuzzleGate.Json

open Decimal

/-- A number as it is written. -/
structure Numeral where
  negative : Bool
  whole : List Char
  /-- The digits after the point; none when there is no point. -/
  fraction : List Char
  /-- The sign and digits of the exponent. -/
  exponent : Option (Bool × List Char)
deriving DecidableEq

/-- A piece of a string: a character, or a code unit written in four hexadecimal digits. -/
inductive Piece where
  | char (c : Char)
  | code (n : Nat)
deriving DecidableEq

inductive Token where
  | openArray
  | closeArray
  | openObject
  | closeObject
  | comma
  | colon
  | null
  | bool (b : Bool)
  | number (n : Numeral)
  /-- A string; none when it names a half of a surrogate pair without the other half. -/
  | string (s : Option String)
  | fault
deriving DecidableEq

def isDigit (c : Char) : Bool := '0' ≤ c && c ≤ '9'

def digitValue (c : Char) : Nat := c.toNat - 48

def hexValue? (c : Char) : Option Nat :=
  if isDigit c then some (c.toNat - 48)
  else if 'a' ≤ c && c ≤ 'f' then some (c.toNat - 87)
  else if 'A' ≤ c && c ≤ 'F' then some (c.toNat - 55)
  else none

def hexValue4? (a b c d : Char) : Option Nat := do
  let a ← hexValue? a
  let b ← hexValue? b
  let c ← hexValue? c
  let d ← hexValue? d
  return ((a * 16 + b) * 16 + c) * 16 + d

def escape? (c : Char) : Option Char :=
  if c = '"' then some '"'
  else if c = '\\' then some '\\'
  else if c = '/' then some '/'
  else if c = 'b' then some '\x08'
  else if c = 'f' then some '\x0c'
  else if c = 'n' then some '\n'
  else if c = 'r' then some '\r'
  else if c = 't' then some '\t'
  else none

/-- Reads the inside of a string up to its closing quote; gives the pieces, latest first in
`pieces`, and the number of characters read, the quote included. -/
def readPieces (pieces : List Piece) (length : Nat) : List Char → Option (List Piece × Nat)
  | [] => none
  | '"' :: _ => some (pieces.reverse, length + 1)
  | '\\' :: 'u' :: a :: b :: c :: d :: rest =>
    match hexValue4? a b c d with
    | some n => readPieces (.code n :: pieces) (length + 6) rest
    | none => none
  | '\\' :: c :: rest =>
    match escape? c with
    | some c => readPieces (.char c :: pieces) (length + 2) rest
    | none => none
  | c :: rest =>
    if c = '\\' || c.toNat < 0x20 then none
    else readPieces (.char c :: pieces) (length + 1) rest

def isHighSurrogate (n : Nat) : Bool := 0xd800 ≤ n && n < 0xdc00

def isLowSurrogate (n : Nat) : Bool := 0xdc00 ≤ n && n < 0xe000

/-- The characters that the pieces stand for: code units outside the surrogates name a character
each, a high and a low surrogate name one together, and one alone names none. -/
def joinPieces : List Piece → Option (List Char)
  | [] => some []
  | .char c :: rest => (joinPieces rest).map (c :: ·)
  | .code high :: .code low :: rest =>
    if isHighSurrogate high then
      if isLowSurrogate low then
        (joinPieces rest).map (.ofNat ((high - 0xd800) * 1024 + (low - 0xdc00) + 0x10000) :: ·)
      else none
    else if isLowSurrogate high then none
    else (joinPieces (.code low :: rest)).map (.ofNat high :: ·)
  | .code n :: rest =>
    if isHighSurrogate n || isLowSurrogate n then none
    else (joinPieces rest).map (.ofNat n :: ·)

def readFraction : List Char → Option (List Char × Nat)
  | '.' :: s =>
    let digits := s.takeWhile isDigit
    if digits.isEmpty then none else some (digits, digits.length + 1)
  | _ => some ([], 0)

def readExponentDigits (negative : Bool) (signLength : Nat) (s : List Char) :
    Option (Option (Bool × List Char) × Nat) :=
  let digits := s.takeWhile isDigit
  if digits.isEmpty then none
  else some (some (negative, digits), digits.length + signLength + 1)

def readExponent : List Char → Option (Option (Bool × List Char) × Nat)
  | 'e' :: '-' :: s | 'E' :: '-' :: s => readExponentDigits true 1 s
  | 'e' :: '+' :: s | 'E' :: '+' :: s => readExponentDigits false 1 s
  | 'e' :: s | 'E' :: s => readExponentDigits false 0 s
  | _ => some (none, 0)

/-- Reads an unsigned number: a lone zero or digits that start with another one, then an optional
fraction and an optional exponent. -/
def readUnsigned (negative : Bool) (s : List Char) : Option (Numeral × Nat) :=
  let whole := s.takeWhile isDigit
  if whole.isEmpty || (whole.head? = some '0' && 1 < whole.length) then none
  else do
    let s := s.drop whole.length
    let (fraction, fractionLength) ← readFraction s
    let (exponent, exponentLength) ← readExponent (s.drop fractionLength)
    return (⟨negative, whole, fraction, exponent⟩, whole.length + fractionLength + exponentLength)

def readNumeral : List Char → Option (Numeral × Nat)
  | '-' :: s => (readUnsigned true s).map fun (n, length) => (n, length + 1)
  | s => readUnsigned false s

/-- The token at the front of a nonempty text that starts with no blank, and its length. -/
def readToken : List Char → Option (Token × Nat)
  | '[' :: _ => some (.openArray, 1)
  | ']' :: _ => some (.closeArray, 1)
  | '\x7b' :: _ => some (.openObject, 1)
  | '\x7d' :: _ => some (.closeObject, 1)
  | ',' :: _ => some (.comma, 1)
  | ':' :: _ => some (.colon, 1)
  | 'n' :: 'u' :: 'l' :: 'l' :: _ => some (.null, 4)
  | 't' :: 'r' :: 'u' :: 'e' :: _ => some (.bool true, 4)
  | 'f' :: 'a' :: 'l' :: 's' :: 'e' :: _ => some (.bool false, 5)
  | '"' :: s =>
    (readPieces [] 0 s).map fun (pieces, length) =>
      (.string ((joinPieces pieces).map .ofList), length + 1)
  | s => (readNumeral s).map fun (n, length) => (.number n, length)

def isSpace (c : Char) : Bool := c = ' ' || c = '\t' || c = '\n' || c = '\r'

/-- The tokens of a text of which `skip` characters belong to a token already read. -/
def tokensFrom : (skip : Nat) → List Char → List Token
  | _, [] => []
  | skip + 1, _ :: rest => tokensFrom skip rest
  | 0, c :: rest =>
    if isSpace c then tokensFrom 0 rest
    else match readToken (c :: rest) with
      | some (token, length) => token :: tokensFrom (length - 1) rest
      | none => [.fault]

def tokens (text : List Char) : List Token := tokensFrom 0 text

/-- Gathers digits into a number while it stays below 2 ^ 64; also gives how many are left. -/
def gather (n : Nat) : List Char → Nat × Nat
  | [] => (n, 0)
  | d :: ds =>
    if n * 10 + digitValue d < 0x10000000000000000 then gather (n * 10 + digitValue d) ds
    else (n, ds.length + 1)

/-- Divides by 10 ^ 308 up to `times` times, rounding after every division. -/
def divideRepeatedly : (times : Nat) → Binary64 → Option Binary64
  | 0, x => some x
  | times + 1, x =>
    if x.isZero then some x
    else ((Binary64.tenTo 308).bind x.scaleDown).bind (divideRepeatedly times)

/-- Divides by a positive power of ten, at most 10 ^ 308 at a time. -/
def divideByTenTo (x : Binary64) (k : Nat) : Option Binary64 :=
  let times := (k - 1) / 308
  (divideRepeatedly times x).bind fun x => (Binary64.tenTo (k - 308 * times)).bind x.scaleDown

/-- The significand rounded to a binary number, then scaled by a power of ten with a second
rounding; none when the result is too large. -/
def scaled (negative : Bool) (significand : Nat) (exponent : Int) : Option Binary64 :=
  (Binary64.ofRatio negative significand 1).bind fun x =>
    if exponent < 0 then divideByTenTo x exponent.natAbs
    else if exponent ≤ 308 then (Binary64.tenTo exponent.toNat).bind x.scaleUp
    else if x.isZero then some x else none

/-- The greatest exponent that is still read as a number. -/
def maxWrittenExponent : Nat := 0x7fffffff

/-- The exact number for a whole number of 64 bits; a negative one has a sign and is not zero. -/
def wholeNumber? (negative : Bool) (n : Nat) : Option Number :=
  if negative then
    if h : 0 < n ∧ n ≤ 0x8000000000000000 then some (.negative (n - 1) (by omega)) else none
  else if h : n < 0x10000000000000000 then some (.natural n h) else none

/-- The binary number for the leading digits that fit 64 bits; none when it is too large. -/
def Numeral.real? (n : Numeral) : Option Binary64 :=
  let (significand, dropped) := gather 0 n.whole
  let (significand, ignored) := gather significand n.fraction
  let start : Int := (dropped : Int) - (n.fraction.length - ignored : Nat)
  match n.exponent with
  | none => scaled n.negative significand start
  | some (negative, digits) =>
    let size := digits.foldl (fun size d => size * 10 + digitValue d) 0
    if size ≤ maxWrittenExponent then
      scaled n.negative significand (if negative then start - size else start + size)
    else if significand = 0 || negative then some (Binary64.zero n.negative)
    else none

/-- The number that a numeral stands for, or none when its size is beyond all numbers. Whole
numbers of 64 bits are exact, all others are rounded. -/
def Numeral.number? (n : Numeral) : Option Number :=
  let (significand, dropped) := gather 0 n.whole
  let exact :=
    if dropped = 0 && n.fraction.isEmpty && n.exponent.isNone then
      wholeNumber? n.negative significand
    else none
  exact.or (n.real?.map .real)

end PuzzleGate.Json
