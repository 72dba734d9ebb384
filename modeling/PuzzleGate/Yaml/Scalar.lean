import PuzzleGate.Decimal.Shortest
import PuzzleGate.Reading.Problem
import PuzzleGate.Yaml.Node

/-!
# What a YAML scalar means

A plain scalar is null, a truth value, a whole number, a number with a fraction, or else a string;
the other styles always give strings. A standard tag asks for one of these kinds. Whole numbers
may be written in base ten without leading zeros, or in base sixteen, eight or two.
-/

namespace PuzzleGate.Yaml

open Decimal Reading

/-- The value of a scalar. -/
inductive Meaning where
  | unit
  | bool (b : Bool)
  | integer (n : Int)
  /-- A number that is not written as a whole number, by its text. -/
  | real (text : String)
  | string (s : String)
deriving DecidableEq, Repr

def Meaning.found : Meaning → Found
  | .unit => .unit
  | .bool b => .bool b
  | .integer n => .integer n
  | .real text => .real text
  | .string s => .string s

def isNull (text : String) : Bool :=
  text == "null" || text == "Null" || text == "NULL" || text == "~"

def bool? (text : String) : Option Bool :=
  if ["true", "True", "TRUE"].contains text then some true
  else if ["false", "False", "FALSE"].contains text then some false
  else none

def digitsIn? (base : Nat) (digits : List Char) : Option Nat :=
  if digits.isEmpty then none
  else digits.foldlM (fun n d => match hexDigit? d with
    | some v => if v < base then some (n * base + v) else none
    | none => none) 0

def based? : List Char → Option Nat
  | '0' :: 'x' :: digits => digitsIn? 16 digits
  | '0' :: 'o' :: digits => digitsIn? 8 digits
  | '0' :: 'b' :: digits => digitsIn? 2 digits
  | _ => none

def hasLeadingZero (digits : List Char) : Bool :=
  digits.head? = some '0' && 1 < digits.length && digits.all fun d => '0' ≤ d && d ≤ '9'

/-- The number written in base ten or behind the mark of another base. -/
def magnitude? (digits : List Char) : Option Nat :=
  (based? digits).or (if hasLeadingZero digits then none else digitsIn? 10 digits)

/-- The natural number that the text writes, with an optional plus sign. -/
def natural? (text : List Char) : Option Nat :=
  match text with
  | '+' :: digits => magnitude? digits
  | digits => magnitude? digits

/-- The whole number that the text writes, as far as it fits 128 bits. -/
def integer? (text : List Char) : Option Int :=
  match text with
  | '-' :: digits => ((magnitude? digits).filter (· ≤ powerOfTwo 127)).map fun n => -(n : Int)
  | _ => ((natural? text).filter (· < powerOfTwo 128)).map fun n => (n : Int)

def exponent? : List Char → Option Int
  | [] => some 0
  | c :: rest =>
    if c = 'e' || c = 'E' then
      match rest with
      | '-' :: digits => (digitsIn? 10 digits).map fun n => -(n : Int)
      | '+' :: digits | digits => (digitsIn? 10 digits).map fun n => (n : Int)
    else none

/-- The number that digits with an optional point and exponent write, if it is not too large. -/
def decimal? (negative : Bool) (text : List Char) : Option Binary64 := do
  let isDigit (c : Char) : Bool := '0' ≤ c && c ≤ '9'
  let whole := text.takeWhile isDigit
  let rest := text.drop whole.length
  let (fraction, rest) := match rest with
    | '.' :: rest => (rest.takeWhile isDigit, rest.dropWhile isDigit)
    | rest => ([], rest)
  if whole.isEmpty && fraction.isEmpty then none
  let exponent ← exponent? rest
  let significand ← digitsIn? 10 (whole ++ fraction)
  Binary64.ofDecimal negative significand (exponent - fraction.length)

/-- The text of the number with a fraction or exponent that is written, infinities included. -/
def real? (text : List Char) : Option String :=
  let unsigned := match text with
    | '+' :: rest => rest
    | rest => rest
  let infinities := [".inf", ".Inf", ".INF"].map String.toList
  if infinities.contains unsigned then some "inf"
  else if (infinities.map ('-' :: ·)).contains text then some "-inf"
  else if ([".nan", ".NaN", ".NAN"].map String.toList).contains text then some "NaN"
  else match text with
    | '-' :: rest => (decimal? true rest).map fun x => .ofList x.positionalText
    | '+' :: rest | rest => (decimal? false rest).map fun x => .ofList x.positionalText

def unsignedDigits : List Char → List Char
  | '-' :: digits | '+' :: digits => digits
  | digits => digits

def plainMeaning (text : String) : Meaning :=
  if text = "" || isNull text then .unit
  else match bool? text with
    | some b => .bool b
    | none =>
      let chars := text.toList
      match integer? chars with
      | some n => .integer n
      | none =>
        if hasLeadingZero (unsignedDigits chars) then .string text
        else match real? chars with
          | some text => .real text
          | none => .string text

def standardTag (name : String) : String := "tag:yaml.org,2002:" ++ name

/-- The meaning of a scalar; none when it is not of the kind that its tag asks for. -/
def Scalar.meaning? (scalar : Scalar) : Option Meaning :=
  let text := scalar.text
  match scalar.tag with
  | none => some (if scalar.style = .plain then plainMeaning text else .string text)
  | some tag =>
    if tag = standardTag "bool" then (bool? text).map .bool
    else if tag = standardTag "int" then (integer? text.toList).map .integer
    else if tag = standardTag "float" then (real? text.toList).map .real
    else if tag = standardTag "null" then if isNull text then some .unit else none
    else if tag.toList.head? = some '!' && scalar.style = .plain then some (plainMeaning text)
    else some (.string text)

def Scalar.isEmpty (scalar : Scalar) : Bool := scalar.text == "" && scalar.style == .plain

end PuzzleGate.Yaml
