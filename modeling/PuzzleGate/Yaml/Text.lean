import PuzzleGate.Yaml.Cursor

/-!
# Scalars as they stand in a YAML text

Readers for the five ways of writing a scalar. Each gives the scalar's text and the cursor behind
it. In flowing scalars a single line end counts as a space and of several the first is dropped;
blanks around line ends are dropped too.
-/

namespace PuzzleGate.Yaml

/-- What stands between two runs of characters of a scalar. -/
structure Joint where
  /-- Blanks, when there is no line end. -/
  gaps : List Char := []
  /-- The first line end, when there is one. -/
  first : Option Char := none
  /-- The further line ends. -/
  more : List Char := []

def Joint.text (joint : Joint) : List Char :=
  match joint.first with
  | none => joint.gaps
  | some '\n' => if joint.more.isEmpty then [' '] else joint.more
  | some c => c :: joint.more

/-- Reads blanks and line ends. A tab before column `indent` of a new line is not accepted. -/
def readJoint (indent : Nat) : (fuel : Nat) → Joint → Cursor → Option (Joint × Cursor)
  | 0, joint, cursor => some (joint, cursor)
  | fuel + 1, joint, cursor =>
    if cursor.atGap then
      if joint.first.isSome then
        if cursor.column < indent && cursor.sees '\t' then none
        else readJoint indent fuel joint (cursor.skip 1)
      else
        readJoint indent fuel { joint with gaps := joint.gaps ++ [(cursor.peek?.getD ' ')] }
          (cursor.skip 1)
    else if cursor.atBreak then
      let joint :=
        if joint.first.isSome then { joint with more := joint.more ++ [cursor.breakChar] }
        else { gaps := [], first := some cursor.breakChar, more := [] }
      readJoint indent fuel joint cursor.skipBreak
    else some (joint, cursor)

def isFlowIndicator (c : Char) : Bool := c = ',' || c = '[' || c = ']' || c = '\x7b' || c = '\x7d'

/-- How many characters a plain scalar takes from here without a blank. Inside brackets a colon
right before an indicator is not accepted. -/
def plainRun (flow : Bool) : List Char → Option Nat
  | [] => some 0
  | c :: rest =>
    if isGap c || isBreak c then some 0
    else if flow && c = ':' && rest.head?.any (fun d => isFlowIndicator d || d = '?') then none
    else if c = ':' && endsWord rest then some 0
    else if flow && isFlowIndicator c then some 0
    else (plainRun flow rest).map (· + 1)

/-- Goes on with a plain scalar whose text so far and the joint behind it are given; also says
whether the scalar is followed by a line end. -/
def readPlainFrom (flow : Bool) (indent : Nat) : (fuel : Nat) → List Char → Joint → Cursor →
    Option (List Char × Bool × Cursor)
  | 0, text, joint, cursor => some (text, joint.first.isSome, cursor)
  | fuel + 1, text, joint, cursor => do
    if cursor.atBoundary || cursor.sees '#' then return (text, joint.first.isSome, cursor)
    let n ← plainRun flow cursor.rest
    let (text, joint) :=
      if n = 0 then (text, joint) else (text ++ joint.text ++ cursor.rest.take n, {})
    let cursor := cursor.skip n
    if !cursor.atGap && !cursor.atBreak then return (text, joint.first.isSome, cursor)
    let (joint, cursor) ← readJoint indent (cursor.rest.length + 1) joint cursor
    if !flow && cursor.column < indent then return (text, joint.first.isSome, cursor)
    readPlainFrom flow indent fuel text joint cursor

def readPlain (flow : Bool) (indent : Nat) (cursor : Cursor) :
    Option (List Char × Bool × Cursor) :=
  readPlainFrom flow indent (cursor.rest.length + 1) [] {} cursor

def hexDigit? (c : Char) : Option Nat :=
  if '0' ≤ c && c ≤ '9' then some (c.toNat - 48)
  else if 'a' ≤ c && c ≤ 'f' then some (c.toNat - 87)
  else if 'A' ≤ c && c ≤ 'F' then some (c.toNat - 55)
  else none

def hexNumber? (digits : List Char) : Option Nat :=
  digits.foldlM (fun n d => (hexDigit? d).map (n * 16 + ·)) 0

def charOf? (n : Nat) : Option Char :=
  if (0xd800 ≤ n && n ≤ 0xdfff) || 0x10ffff < n then none else some (.ofNat n)

def shortEscape? (c : Char) : Option Char :=
  match c with
  | '0' => some '\x00'
  | 'a' => some '\x07'
  | 'b' => some '\x08'
  | 't' | '\t' => some '\t'
  | 'n' => some '\n'
  | 'v' => some '\x0b'
  | 'f' => some '\x0c'
  | 'r' => some '\r'
  | 'e' => some '\x1b'
  | ' ' => some ' '
  | '"' => some '"'
  | '/' => some '/'
  | '\\' => some '\\'
  | 'N' => some '\x85'
  | '_' => some '\xa0'
  | 'L' => some '\u2028'
  | 'P' => some '\u2029'
  | _ => none

def codeLength? (c : Char) : Option Nat :=
  match c with
  | 'x' => some 2
  | 'u' => some 4
  | 'U' => some 8
  | _ => none

/-- The character that an escape stands for, given what follows the backslash, and its length. -/
def escape? : List Char → Option (Char × Nat)
  | [] => none
  | c :: rest =>
    match shortEscape? c with
    | some char => some (char, 1)
    | none => do
      let length ← codeLength? c
      let digits := rest.take length
      if digits.length = length then
        let char ← charOf? (← hexNumber? digits)
        return (char, length + 1)
      else none

/-- Reads a run of characters of a quoted scalar up to a blank, a line end or the closing quote.
The run ends behind an escaped line end, which the result then reports. -/
def readQuotedRun (double : Bool) : (fuel : Nat) → List Char → Cursor →
    Option (List Char × Bool × Cursor)
  | 0, text, cursor => some (text, false, cursor)
  | fuel + 1, text, cursor =>
    if endsWord cursor.rest then some (text, false, cursor)
    else if !double && cursor.rest.take 2 == ['\'', '\''] then
      readQuotedRun double fuel (text ++ ['\'']) (cursor.skip 2)
    else if cursor.sees (if double then '"' else '\'') then some (text, false, cursor)
    else if double && cursor.sees '\\' then
      if (cursor.skip 1).atBreak then some (text, true, (cursor.skip 1).skipBreak)
      else match escape? (cursor.rest.drop 1) with
        | some (c, length) => readQuotedRun double fuel (text ++ [c]) (cursor.skip (length + 1))
        | none => none
    else readQuotedRun double fuel (text ++ cursor.rest.take 1) (cursor.skip 1)

/-- Goes on with a quoted scalar up to and including its closing quote. -/
def readQuotedFrom (double : Bool) : (fuel : Nat) → List Char → Cursor →
    Option (List Char × Cursor)
  | 0, _, _ => none
  | fuel + 1, text, cursor => do
    if cursor.atBoundary || cursor.atEnd then none
    let (text, escaped, cursor) ← readQuotedRun double (cursor.rest.length + 1) text cursor
    if cursor.sees (if double then '"' else '\'') then return (text, cursor.skip 1)
    let (joint, cursor) ←
      if escaped then
        (readJoint 0 (cursor.rest.length + 1) { first := some ' ' } cursor).map
          fun (joint, cursor) => ({ gaps := joint.more : Joint }, cursor)
      else readJoint 0 (cursor.rest.length + 1) {} cursor
    readQuotedFrom double fuel (text ++ joint.text) cursor

def readQuoted (double : Bool) (cursor : Cursor) : Option (List Char × Cursor) :=
  readQuotedFrom double (cursor.rest.length + 1) [] (cursor.skip 1)

/-- What happens to the line ends at the end of a block scalar. -/
inductive Chomping where
  | strip
  | clip
  | keep
deriving DecidableEq

def chomping? : Option Char → Option Chomping
  | some '+' => some .keep
  | some '-' => some .strip
  | _ => none

/-- The indentation that a header gives; zero is not accepted. -/
def headerDigit? (c : Option Char) : Option Nat :=
  (c.filter fun c => '0' ≤ c && c ≤ '9').map fun c => c.toNat - 48

/-- Reads the chomping and the indentation of a header, in either order. -/
def readHeader (cursor : Cursor) : Option (Chomping × Option Nat × Cursor) := do
  let (chomping, indent, cursor) :=
    match chomping? cursor.peek? with
    | some chomping =>
      let cursor := cursor.skip 1
      match headerDigit? cursor.peek? with
      | some n => (chomping, some n, cursor.skip 1)
      | none => (chomping, none, cursor)
    | none =>
      match headerDigit? cursor.peek? with
      | some n =>
        let cursor := cursor.skip 1
        match chomping? cursor.peek? with
        | some chomping => (chomping, some n, cursor.skip 1)
        | none => (.clip, some n, cursor)
      | none => (.clip, none, cursor)
  if indent = some 0 then none
  let cursor := cursor.skipGapsAndComment
  if cursor.atEnd then return (chomping, indent, cursor)
  if cursor.atBreak then return (chomping, indent, cursor.skipBreak)
  none

/-- Reads indentation and empty lines. With `indent` zero the indentation is still to be found:
then all spaces are skipped and the deepest line is remembered. -/
def readEmptyLines (indent : Nat) : (fuel deepest : Nat) → List Char → Cursor →
    Option (List Char × Nat × Cursor)
  | 0, deepest, breaks, cursor => some (breaks, deepest, cursor)
  | fuel + 1, deepest, breaks, cursor =>
    let spaces := (cursor.rest.takeWhile (· = ' ')).length
    let cursor := cursor.skip (if indent = 0 then spaces else min spaces (indent - cursor.column))
    let deepest := max deepest cursor.column
    if (indent = 0 || cursor.column < indent) && cursor.sees '\t' then none
    else if cursor.atBreak then
      readEmptyLines indent fuel deepest (breaks ++ [cursor.breakChar]) cursor.skipBreak
    else some (breaks, deepest, cursor)

/-- Goes on with the lines of a block scalar. `leading` is the line end before this line, `blank`
says whether the line before started with a blank, and `breaks` are the empty lines between. -/
def readBlockLines (folded : Bool) (chomping : Chomping) (indent : Nat) : (fuel : Nat) →
    (text : List Char) → (leading : Option Char) → (blank : Bool) → (breaks : List Char) →
    Cursor → Option (List Char × Cursor)
  | 0, _, _, _, _, _ => none
  | fuel + 1, text, leading, blank, breaks, cursor =>
    if cursor.column = indent && !cursor.atEnd then do
      let joined :=
        if folded && leading = some '\n' && !blank && !cursor.atGap then
          if breaks.isEmpty then [' '] else []
        else leading.toList
      let line := cursor.rest.takeWhile fun c => !isBreak c
      let text := text ++ joined ++ breaks ++ line
      let blank := cursor.atGap
      let cursor := cursor.skip line.length
      let (leading, cursor) :=
        if cursor.atBreak then (some cursor.breakChar, cursor.skipBreak) else (none, cursor)
      let (breaks, _, cursor) ← readEmptyLines indent (cursor.rest.length + 1) 0 [] cursor
      readBlockLines folded chomping indent fuel text leading blank breaks cursor
    else
      let last := if chomping = .strip then [] else leading.toList
      let breaks := if chomping = .keep then breaks else []
      some (text ++ last ++ breaks, cursor)

/-- Reads a block scalar from its indicator on, inside a block indented by `outer`. -/
def readBlock (folded : Bool) (outer : Int) (cursor : Cursor) : Option (List Char × Cursor) := do
  let (chomping, given, cursor) ← readHeader (cursor.skip 1)
  let fuel := cursor.rest.length + 1
  let known := match given with
    | some n => (max outer 0).toNat + n
    | none => 0
  let (breaks, deepest, cursor) ← readEmptyLines known fuel 0 [] cursor
  let indent := if known = 0 then max deepest (max (outer + 1).toNat 1) else known
  readBlockLines folded chomping indent fuel [] none false breaks cursor

end PuzzleGate.Yaml
