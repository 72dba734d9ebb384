import PuzzleGate.Yaml.Text

/-!
# YAML tokens

`tokens` splits a text into tokens; the token `fault` ends the list where the text cannot be read
on. Whether a token begins a key is seen only at the colon behind it, so a token that may turn out
to begin a key is held back, with all tokens after it, until that is decided. Tokens that are
still held back at a fault are lost.
-/

namespace PuzzleGate.Yaml

/-- How a scalar is written. -/
inductive Style where
  | plain
  | quoted
  | literal
  | folded
deriving DecidableEq, Repr

inductive Token where
  | streamEnd
  | version (major minor : Nat)
  | tagHandle (handle expansion : List Char)
  | documentStart
  | documentEnd
  | blockSequence
  | blockMapping
  | blockEnd
  | openSequence
  | closeSequence
  | openMapping
  | closeMapping
  | blockEntry
  | flowEntry
  | key
  | value
  | alias (name : List Char)
  | anchor (name : List Char)
  | tag (handle suffix : List Char)
  | scalar (text : List Char) (style : Style)
  | fault
deriving DecidableEq, Repr

/-- A place at which a key may have begun. -/
structure KeyStart where
  /-- Whether nothing but a key may stand here. -/
  required : Bool
  /-- The number of the token that begins the key. -/
  token : Nat
  index : Nat
  line : Nat
  column : Nat

def maxKeyLength : Nat := 1024

structure Scanner where
  cursor : Cursor
  /-- How many brackets are open. -/
  flowLevel : Nat
  /-- The column of the innermost block, or -1 outside all blocks. -/
  indent : Int
  /-- The columns of the blocks around it. -/
  outer : List Int
  /-- Whether a key may begin at the next token. -/
  keyAllowed : Bool
  /-- For every open bracket, and for the blocks outside, where a key may have begun. -/
  keys : List (Option KeyStart)
  /-- The number of tokens that are decided. -/
  released : Nat
  /-- The tokens that are held back. -/
  held : List Token

namespace Scanner

def start (cursor : Cursor) : Scanner := ⟨cursor, 0, -1, [], true, [none], 0, []⟩

def push (s : Scanner) (token : Token) : Scanner := { s with held := s.held ++ [token] }

def insertAt (s : Scanner) (number : Nat) (token : Token) : Scanner :=
  let i := number - s.released
  { s with held := s.held.take i ++ token :: s.held.drop i }

def dropKey (s : Scanner) : Option Scanner :=
  match s.keys with
  | some key :: keys => if key.required then none else some { s with keys := none :: keys }
  | _ => some s

def saveKey (s : Scanner) : Option Scanner :=
  if s.keyAllowed then do
    let s ← s.dropKey
    let c := s.cursor
    let key : KeyStart :=
      { required := s.flowLevel == 0 && s.indent == (c.column : Int)
        token := s.released + s.held.length
        index := c.index
        line := c.line
        column := c.column }
    return { s with keys := some key :: s.keys.tail }
  else some s

/-- Gives up places that are too far behind or on an earlier line. -/
def dropStaleKeys (s : Scanner) : Option Scanner := do
  let keys ← s.keys.mapM fun key? => match key? with
    | some key =>
      if key.line < s.cursor.line || key.index + maxKeyLength < s.cursor.index then
        if key.required then none else some none
      else some (some key)
    | none => some none
  return { s with keys }

/-- Opens a block at the column, if it is deeper than the innermost one. -/
def openBlock (s : Scanner) (column : Nat) (number : Option Nat) (token : Token) : Scanner :=
  if s.flowLevel = 0 && s.indent < column then
    let s := { s with outer := s.indent :: s.outer, indent := column }
    match number with
    | some number => s.insertAt number token
    | none => s.push token
  else s

def closeBlocks (s : Scanner) (column : Int) : Scanner :=
  if s.flowLevel = 0 then go s.outer s else s
where
  go : List Int → Scanner → Scanner
    | [], s => s
    | indent :: outer, s =>
      if column < s.indent then go outer { s.push .blockEnd with indent, outer } else s

/-- Behind the blanks, comments and line ends before the next token. Tabs count as blanks only
where no key may begin. -/
def skipToToken (s : Scanner) : (fuel : Nat) → Scanner
  | 0 => s
  | fuel + 1 =>
    let c := s.cursor
    let c := if c.column = 0 && c.sees '\ufeff' then c.skip 1 else c
    let tabs := s.flowLevel != 0 || !s.keyAllowed
    let c := c.skipWhile fun c => c = ' ' || (tabs && c = '\t')
    let c := if c.sees '#' then c.skipWhile fun c => !isBreak c else c
    if c.atBreak then
      skipToToken { s with
        cursor := c.skipBreak, keyAllowed := s.keyAllowed || s.flowLevel == 0 } fuel
    else { s with cursor := c }

def take (s : Scanner) (length : Nat) (token : Token) : Scanner :=
  { s.push token with cursor := s.cursor.skip length }

def fetchEnd (s : Scanner) : Option Scanner := do
  let s ← (s.closeBlocks (-1)).dropKey
  return { s.push .streamEnd with keyAllowed := false }

def word? (c : Cursor) : Option (List Char × Cursor) :=
  let word := c.rest.takeWhile isWordChar
  if word.isEmpty then none else some (word, c.skip word.length)

def versionNumber? (c : Cursor) : Option (Nat × Cursor) :=
  let digits := c.rest.takeWhile fun c => '0' ≤ c && c ≤ '9'
  if digits.isEmpty || 9 < digits.length then none
  else some (digits.foldl (fun n d => n * 10 + (d.toNat - 48)) 0, c.skip digits.length)

/-- The characters of tags; `verbatim` says whether the tag stands between angle brackets. -/
def isTagChar (verbatim : Bool) (c : Char) : Bool :=
  isWordChar c || [';', '/', '?', ':', '@', '&', '=', '+', '$', '.', '!', '~', '*', '\'', '(', ')',
    '%'].contains c || (verbatim && [',', '[', ']'].contains c)

/-- The bytes written as `%` and two hexadecimal digits at the front, and their length. -/
def percentBytes : List Char → List UInt8
  | '%' :: a :: b :: rest =>
    match hexNumber? [a, b] with
    | some n => n.toUInt8 :: percentBytes rest
    | none => []
  | _ => []

/-- The characters of a tag with its escapes read; none when one is not UTF-8. -/
def unescapeTag : (fuel : Nat) → List Char → Option (List Char)
  | _, [] => some []
  | 0, _ => none
  | fuel + 1, '%' :: rest =>
    let bytes := percentBytes ('%' :: rest)
    match String.fromUTF8? ⟨bytes.toArray⟩ with
    | some text =>
      if bytes.isEmpty then none
      else (unescapeTag fuel (('%' :: rest).drop (3 * bytes.length))).map (text.toList ++ ·)
    | none => none
  | fuel + 1, c :: rest => (unescapeTag fuel rest).map (c :: ·)

def tagRest? (verbatim : Bool) (c : Cursor) : Option (List Char × Cursor) := do
  let written := c.rest.takeWhile (isTagChar verbatim)
  let text ← unescapeTag written.length written
  return (text, c.skip written.length)

/-- A handle: an exclamation mark, a word, and a second mark if there is one. -/
def handle? (c : Cursor) : Option (List Char × Cursor) :=
  if c.sees '!' then
    let word := (c.rest.drop 1).takeWhile isWordChar
    let behind := c.skip (word.length + 1)
    if behind.sees '!' then some ('!' :: word ++ ['!'], behind.skip 1)
    else some ('!' :: word, behind)
  else none

def directiveEnd (c : Cursor) : Option Cursor :=
  let c := c.skipGapsAndComment
  if c.atEnd then some c else if c.atBreak then some c.skipBreak else none

def directive? (c : Cursor) : Option (Token × Cursor) := do
  let (name, c) ← word? (c.skip 1)
  if !endsWord c.rest then none
  let c := c.skipWhile isGap
  if name = "YAML".toList then
    let (major, c) ← versionNumber? c
    if !c.sees '.' then none
    let (minor, c) ← versionNumber? (c.skip 1)
    return (.version major minor, ← directiveEnd c)
  else if name = "TAG".toList then
    let (handle, c) ← handle? c
    if !(handle = ['!'] || handle.getLast? = some '!') then none
    if !c.atGap then none
    let (expansion, c) ← tagRest? true (c.skipWhile isGap)
    if expansion.isEmpty || !endsWord c.rest then none
    return (.tagHandle handle expansion, ← directiveEnd c)
  else none

def fetchDirective (s : Scanner) : Option Scanner := do
  let s ← (s.closeBlocks (-1)).dropKey
  let (token, cursor) ← directive? s.cursor
  return { s.push token with cursor, keyAllowed := false }

def fetchBoundary (s : Scanner) (token : Token) : Option Scanner := do
  let s ← (s.closeBlocks (-1)).dropKey
  return { s.take 3 token with keyAllowed := false }

def fetchOpen (s : Scanner) (token : Token) : Option Scanner := do
  let s ← s.saveKey
  return { s.take 1 token with
    keys := none :: s.keys, flowLevel := s.flowLevel + 1, keyAllowed := true }

def fetchClose (s : Scanner) (token : Token) : Option Scanner := do
  let s ← s.dropKey
  let s := if s.flowLevel = 0 then s
    else { s with flowLevel := s.flowLevel - 1, keys := s.keys.tail }
  return { s.take 1 token with keyAllowed := false }

def fetchFlowEntry (s : Scanner) : Option Scanner := do
  let s ← s.dropKey
  return { s.take 1 .flowEntry with keyAllowed := true }

def fetchBlockEntry (s : Scanner) : Option Scanner := do
  if s.flowLevel = 0 && !s.keyAllowed then none
  let s ← (s.openBlock s.cursor.column none .blockSequence).dropKey
  return { s.take 1 .blockEntry with keyAllowed := true }

def fetchKey (s : Scanner) : Option Scanner := do
  if s.flowLevel = 0 && !s.keyAllowed then none
  let s ← (s.openBlock s.cursor.column none .blockMapping).dropKey
  return { s.take 1 .key with keyAllowed := s.flowLevel == 0 }

def fetchValue (s : Scanner) : Option Scanner :=
  match s.keys with
  | some key :: keys =>
    let s := (s.insertAt key.token .key).openBlock key.column (some key.token) .blockMapping
    some { s.take 1 .value with keys := none :: keys, keyAllowed := false }
  | _ =>
    if s.flowLevel = 0 && !s.keyAllowed then none
    else
      let s := s.openBlock s.cursor.column none .blockMapping
      some { s.take 1 .value with keyAllowed := s.flowLevel == 0 }

def endsAnchor (rest : List Char) : Bool :=
  endsWord rest ||
    (rest.head?.any fun c => ['?', ':', ',', ']', '\x7d', '%', '@', '\x60'].contains c)

def fetchAnchor (s : Scanner) (token : List Char → Token) : Option Scanner := do
  let s ← s.saveKey
  let (name, cursor) ← word? (s.cursor.skip 1)
  if !endsAnchor cursor.rest then none
  return { s.push (token name) with cursor, keyAllowed := false }

/-- The tag at the cursor: between angle brackets, behind a handle, or behind a single mark. -/
def tag? (c : Cursor) : Option (Token × Cursor) := do
  if (c.skip 1).sees '<' then
    let (suffix, c) ← tagRest? true (c.skip 2)
    if suffix.isEmpty || !c.sees '>' then none
    return (.tag [] suffix, c.skip 1)
  else
    let (handle, c) ← handle? c
    if 1 < handle.length && handle.getLast? = some '!' then
      let (suffix, c) ← tagRest? false c
      if suffix.isEmpty then none
      return (.tag handle suffix, c)
    else
      let (rest, c) ← tagRest? false c
      let suffix := handle.tail ++ rest
      return (if suffix.isEmpty then .tag [] ['!'] else .tag ['!'] suffix, c)

def fetchTag (s : Scanner) : Option Scanner := do
  let s ← s.saveKey
  let (token, cursor) ← tag? s.cursor
  if !(endsWord cursor.rest || (s.flowLevel != 0 && cursor.sees ',')) then none
  return { s.push token with cursor, keyAllowed := false }

def fetchBlockScalar (s : Scanner) (folded : Bool) : Option Scanner := do
  let s ← s.dropKey
  let (text, cursor) ← readBlock folded s.indent s.cursor
  return { s.push (.scalar text (if folded then .folded else .literal)) with
    cursor, keyAllowed := true }

def fetchQuoted (s : Scanner) (double : Bool) : Option Scanner := do
  let s ← s.saveKey
  let (text, cursor) ← readQuoted double s.cursor
  return { s.push (.scalar text .quoted) with cursor, keyAllowed := false }

def fetchPlain (s : Scanner) : Option Scanner := do
  let s ← s.saveKey
  let (text, lineEnded, cursor) ← readPlain (s.flowLevel != 0) (s.indent + 1).toNat s.cursor
  return { s.push (.scalar text .plain) with cursor, keyAllowed := lineEnded }

/-- The characters that mean something of their own at the start of a token. -/
def indicators : List Char :=
  ['-', '?', ':', ',', '[', ']', '\x7b', '\x7d', '#', '&', '*', '!', '|', '>', '\'', '"', '%', '@',
    '\x60']

def startsPlain (flow : Bool) : List Char → Bool
  | [] => false
  | c :: rest =>
    !(isGap c || isBreak c || indicators.contains c) ||
    (c = '-' && !rest.head?.any isGap) ||
    (!flow && (c = '?' || c = ':') && !endsWord rest)

/-- Reads the next token, with the tokens that its place implies. -/
def fetch (s : Scanner) : Option Scanner := do
  let s ← (s.skipToToken (s.cursor.rest.length + 1)).dropStaleKeys
  let s := s.closeBlocks s.cursor.column
  let c := s.cursor
  let flow := s.flowLevel != 0
  match c.rest with
  | [] => s.fetchEnd
  | first :: rest =>
    if c.column = 0 && first = '%' then s.fetchDirective
    else if c.atMark '-' then s.fetchBoundary .documentStart
    else if c.atMark '.' then s.fetchBoundary .documentEnd
    else if first = '[' then s.fetchOpen .openSequence
    else if first = '\x7b' then s.fetchOpen .openMapping
    else if first = ']' then s.fetchClose .closeSequence
    else if first = '\x7d' then s.fetchClose .closeMapping
    else if first = ',' then s.fetchFlowEntry
    else if first = '-' && endsWord rest then s.fetchBlockEntry
    else if first = '?' && (flow || endsWord rest) then s.fetchKey
    else if first = ':' && (flow || endsWord rest) then s.fetchValue
    else if first = '*' then s.fetchAnchor .alias
    else if first = '&' then s.fetchAnchor .anchor
    else if first = '!' then s.fetchTag
    else if first = '|' && !flow then s.fetchBlockScalar false
    else if first = '>' && !flow then s.fetchBlockScalar true
    else if first = '\'' then s.fetchQuoted false
    else if first = '"' then s.fetchQuoted true
    else if startsPlain flow c.rest then s.fetchPlain
    else none

def release (s : Scanner) : List Token × Scanner :=
  let n := s.keys.foldl (fun n key? => match key? with
    | some key => min n (key.token - s.released)
    | none => n) s.held.length
  (s.held.take n, { s with held := s.held.drop n, released := s.released + n })

def run : (fuel : Nat) → Scanner → List Token
  | 0, _ => [.fault]
  | fuel + 1, s =>
    match s.fetch.bind dropStaleKeys with
    | none => [.fault]
    | some s =>
      let (tokens, s) := s.release
      if tokens.getLast? = some .streamEnd then tokens else tokens ++ run fuel s

end Scanner

def isPrintable (c : Char) : Bool :=
  c = '\t' || c = '\n' || c = '\r' || (' ' ≤ c && c ≤ '~') || c = '\x85' ||
    ('\xa0' ≤ c && c ≤ '\ufffd') || 0x10000 ≤ c.toNat

/-- The tokens of a text. A mark of the byte order may stand at its start. -/
def tokens (text : String) : List Token :=
  let chars := match text.toList with
    | '\ufeff' :: rest => rest
    | chars => chars
  if chars.all isPrintable then Scanner.run (chars.length + 2) (.start (.ofText chars))
  else [.fault]

end PuzzleGate.Yaml
