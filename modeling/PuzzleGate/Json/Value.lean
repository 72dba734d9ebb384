import PuzzleGate.Decimal.Shortest

/-!
# JSON values and their text

A value's object holds its fields in the order in which they are written. Values that are read
have their fields in increasing order of the key, each key once; `Value.Ordered` says so, and
for such values equality does not depend on the order in which fields were given.
-/

namespace PuzzleGate.Json

open Decimal

/-- A number by the way it is written: whole numbers that fit 64 bits are kept exactly. -/
inductive Number where
  | natural (n : Nat) (bounded : n < 0x10000000000000000)
  /-- The number `-(n + 1)`. -/
  | negative (n : Nat) (bounded : n < 0x8000000000000000)
  | real (x : Binary64)
deriving DecidableEq

/-- Numbers of different kinds differ; numbers of one kind are compared by value. -/
def Number.same : Number → Number → Bool
  | .natural m _, .natural n _ => m == n
  | .negative m _, .negative n _ => m == n
  | .real x, .real y => x.same y
  | _, _ => false

def Number.chars : Number → List Char
  | .natural n _ => natDigits n
  | .negative n _ => '-' :: natDigits (n + 1)
  | .real x => x.text

inductive Value where
  | null
  | bool (b : Bool)
  | number (n : Number)
  | string (s : String)
  | array (items : List Value)
  | object (fields : List (String × Value))

instance : Inhabited Value := ⟨.null⟩

/-- A count as a number; no count reaches the bound. -/
def Value.ofNat (n : Nat) : Value := .number (.natural (min n 0xffffffffffffffff) (by omega))

/-- Sets a field in an ordered list of fields, replacing an earlier value of the key. -/
def setField (key : String) (value : Value) : List (String × Value) → List (String × Value)
  | [] => [(key, value)]
  | (k, v) :: fields =>
    if key < k then (key, value) :: (k, v) :: fields
    else if key = k then (key, value) :: fields
    else (k, v) :: setField key value fields

/-- The fields in increasing order of their keys; of fields with one key the last counts. -/
def orderFields (fields : List (String × Value)) : List (String × Value) :=
  fields.foldl (fun ordered (key, value) => setField key value ordered) []

mutual

def Value.same : Value → Value → Bool
  | .null, .null => true
  | .bool a, .bool b => a == b
  | .number a, .number b => a.same b
  | .string a, .string b => a == b
  | .array a, .array b => sameItems a b
  | .object a, .object b => sameFields a b
  | _, _ => false

def sameItems : List Value → List Value → Bool
  | [], [] => true
  | a :: as, b :: bs => a.same b && sameItems as bs
  | _, _ => false

def sameFields : List (String × Value) → List (String × Value) → Bool
  | [], [] => true
  | (k, a) :: as, (l, b) :: bs => k == l && a.same b && sameFields as bs
  | _, _ => false

end

mutual

/-- Every object in the value has its keys in strictly increasing order. -/
def Value.Ordered : Value → Prop
  | .array items => OrderedItems items
  | .object fields => (fields.map Prod.fst).Pairwise (· < ·) ∧ OrderedFields fields
  | _ => True

def OrderedItems : List Value → Prop
  | [] => True
  | value :: values => value.Ordered ∧ OrderedItems values

def OrderedFields : List (String × Value) → Prop
  | [] => True
  | (_, value) :: fields => value.Ordered ∧ OrderedFields fields

end

/-- The value of a field; the first counts, and only objects have fields. -/
def Value.field? (key : String) : Value → Option Value
  | .object fields => fields.lookup key
  | _ => none

def hexDigit (n : Nat) : Char :=
  if n < 10 then .ofNat (48 + n) else .ofNat (87 + n)

def escapeChar (c : Char) : List Char :=
  if c = '"' then ['\\', '"']
  else if c = '\\' then ['\\', '\\']
  else if c = '\x08' then ['\\', 'b']
  else if c = '\x0c' then ['\\', 'f']
  else if c = '\n' then ['\\', 'n']
  else if c = '\r' then ['\\', 'r']
  else if c = '\t' then ['\\', 't']
  else if c.toNat < 0x20 then
    ['\\', 'u', '0', '0', hexDigit (c.toNat / 16), hexDigit (c.toNat % 16)]
  else [c]

def stringChars (s : String) : List Char :=
  '"' :: s.toList.flatMap escapeChar ++ ['"']

mutual

def Value.chars : Value → List Char
  | .null => ['n', 'u', 'l', 'l']
  | .bool true => ['t', 'r', 'u', 'e']
  | .bool false => ['f', 'a', 'l', 's', 'e']
  | .number n => n.chars
  | .string s => stringChars s
  | .array items => '[' :: itemsChars items ++ [']']
  | .object fields => '\x7b' :: fieldsChars fields ++ ['\x7d']

def itemsChars : List Value → List Char
  | [] => []
  | value :: rest => value.chars ++ moreItemsChars rest

def moreItemsChars : List Value → List Char
  | [] => []
  | value :: rest => ',' :: value.chars ++ moreItemsChars rest

def fieldsChars : List (String × Value) → List Char
  | [] => []
  | (key, value) :: rest => stringChars key ++ ':' :: value.chars ++ moreFieldsChars rest

def moreFieldsChars : List (String × Value) → List Char
  | [] => []
  | (key, value) :: rest =>
    ',' :: stringChars key ++ ':' :: value.chars ++ moreFieldsChars rest

end

def Value.text (value : Value) : String := .ofList value.chars

def newLine (level : Nat) : List Char := '\n' :: List.replicate (2 * level) ' '

mutual

def Value.prettyChars (level : Nat) : Value → List Char
  | .array [] => ['[', ']']
  | .array (value :: rest) =>
    '[' :: newLine (level + 1) ++ value.prettyChars (level + 1) ++
      prettyMoreItems (level + 1) rest ++ newLine level ++ [']']
  | .object [] => ['\x7b', '\x7d']
  | .object ((key, value) :: rest) =>
    '\x7b' :: newLine (level + 1) ++ stringChars key ++ ':' :: ' ' ::
      value.prettyChars (level + 1) ++
      prettyMoreFields (level + 1) rest ++ newLine level ++ ['\x7d']
  | value => value.chars

def prettyMoreItems (level : Nat) : List Value → List Char
  | [] => []
  | value :: rest =>
    ',' :: newLine level ++ value.prettyChars level ++ prettyMoreItems level rest

def prettyMoreFields (level : Nat) : List (String × Value) → List Char
  | [] => []
  | (key, value) :: rest =>
    ',' :: newLine level ++ stringChars key ++ ':' :: ' ' :: value.prettyChars level ++
      prettyMoreFields level rest

end

def Value.pretty (value : Value) : String := .ofList (value.prettyChars 0)

end PuzzleGate.Json
