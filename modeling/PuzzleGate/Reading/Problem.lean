import PuzzleGate.Text.Quoted

/-!
# Problems met while reading a document of a known shape

A reader that expects certain fields and kinds of values reports the first problem in the order
of the text. `Problem.message` words each of them.
-/

namespace PuzzleGate.Reading

/-- What stands where something else was expected. -/
inductive Found where
  | null
  /-- An absent or empty value. -/
  | unit
  | bool (b : Bool)
  | integer (n : Int)
  /-- A number that is not whole, by its text. -/
  | real (text : String)
  | string (s : String)
  | sequence
  | map
deriving DecidableEq, Repr

/-- What a reader expects. -/
inductive Expected where
  | string
  | sequence
  | path
  | size
  | record (name : String)
deriving DecidableEq, Repr

inductive Problem where
  /-- The text is not in the format at all. -/
  | malformed
  | missingField (name : String)
  | duplicateField (name : String)
  | unknownField (name : String) (known : List String)
  | mismatch (found : Found) (expected : Expected)
  /-- A record given by position has only `count` of its `total` fields. -/
  | tooShort (count total : Nat) (record : String)
  /-- The value has none of the alternative shapes. -/
  | noAlternative (name : String)
  | badAddress (text : String)
deriving DecidableEq, Repr

def addressMessage (text : String) : String :=
  "invalid address " ++ Text.quoted text ++ ": expected 0x followed by 40 hex digits"

def Found.text : Found → String
  | .null => "null"
  | .unit => "unit value"
  | .bool b => s!"boolean `{b}`"
  | .integer n =>
    let width :=
      if n < -0x8000000000000000 then " as i128"
      else if 0x10000000000000000 ≤ n then " as u128"
      else ""
    s!"integer `{n}`{width}"
  | .real text => s!"floating point `{text}`"
  | .string s => "string " ++ Text.quoted s
  | .sequence => "sequence"
  | .map => "map"

def Expected.text : Expected → String
  | .string => "a string"
  | .sequence => "a sequence"
  | .path => "path string"
  | .size => "usize"
  | .record name => "struct " ++ name

/-- The known names, as the sentence about an unknown one lists them. -/
def knownText : List String → String
  | [name] => s!"expected `{name}`"
  | names => "expected one of " ++ ", ".intercalate (names.map fun name => s!"`{name}`")

def Problem.message : Problem → String
  | .malformed => "<syntax>"
  | .missingField name => s!"missing field `{name}`"
  | .duplicateField name => s!"duplicate field `{name}`"
  | .unknownField name known => s!"unknown field `{name}`, {knownText known}"
  | .mismatch found expected => s!"invalid type: {found.text}, expected {expected.text}"
  | .tooShort count total record =>
    s!"invalid length {count}, expected struct {record} with {total} elements"
  | .noAlternative name => s!"data did not match any variant of untagged enum {name}"
  | .badAddress text => addressMessage text

end PuzzleGate.Reading
