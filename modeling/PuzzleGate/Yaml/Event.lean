import PuzzleGate.Yaml.Token

/-!
# YAML events

Events are the nodes of a document in the order of the text, each collection between a start and
an end. `events` gives those that can be read; `fault` ends the list where the tokens fit no
document. The machine keeps a stack of places at which to go on.
-/

namespace PuzzleGate.Yaml

inductive Event where
  | documentStart
  | documentEnd
  | streamEnd
  | alias (name : List Char)
  | scalar (anchor : Option (List Char)) (tag : Option String) (text : String) (style : Style)
  | sequenceStart (anchor : Option (List Char)) (tag : Option String)
  | sequenceEnd
  | mappingStart (anchor : Option (List Char)) (tag : Option String)
  | mappingEnd
  | fault
deriving DecidableEq, Repr

/-- Where in the grammar the machine stands. -/
inductive Place where
  | implicitDocument
  | document
  | documentContent
  | documentEnd
  | blockNode
  | blockSequenceFirst
  | blockSequence
  | plainSequence
  | blockMappingFirst
  | blockMappingKey
  | blockMappingValue
  | flowSequenceFirst
  | flowSequence
  | pairKey
  | pairValue
  | pairEnd
  | flowMappingFirst
  | flowMappingKey
  | flowMappingValue
  | flowMappingEmptyValue
deriving DecidableEq, Repr

structure Parser where
  tokens : List Token
  place : Place
  /-- Where to go on behind the collections that are open. -/
  stack : List Place
  /-- The tag handles that the document declares. -/
  handles : List (List Char × List Char)

namespace Parser

def start (tokens : List Token) : Parser := ⟨tokens, .implicitDocument, [], []⟩

def next (p : Parser) : Token := p.tokens.headD .fault

def drop (p : Parser) : Parser := { p with tokens := p.tokens.tail }

def goTo (p : Parser) (place : Place) : Parser := { p with place }

def back (p : Parser) : Parser :=
  { p with place := p.stack.headD .document, stack := p.stack.tail }

def later (p : Parser) (place : Place) : Parser := { p with stack := place :: p.stack }

def emptyScalar : Event := .scalar none none "" .plain

def standardHandles : List (List Char × List Char) :=
  [(['!'], ['!']), (['!', '!'], "tag:yaml.org,2002:".toList)]

/-- The tag that a handle and a suffix stand for; none when the handle is not declared. -/
def resolveTag (p : Parser) (handle suffix : List Char) : Option String :=
  if handle.isEmpty then some (.ofList suffix)
  else (p.handles ++ standardHandles).lookup handle |>.map fun expansion =>
    .ofList (expansion ++ suffix)

/-- Reads an optional anchor and an optional tag, in either order. -/
def properties (p : Parser) : Option (Option (List Char) × Option String × Parser) :=
  match p.tokens with
  | .anchor name :: .tag handle suffix :: rest | .tag handle suffix :: .anchor name :: rest =>
    (p.resolveTag handle suffix).map fun tag => (some name, some tag, { p with tokens := rest })
  | .anchor name :: rest => some (some name, none, { p with tokens := rest })
  | .tag handle suffix :: rest =>
    (p.resolveTag handle suffix).map fun tag => (none, some tag, { p with tokens := rest })
  | _ => some (none, none, p)

/-- The tag of a scalar; a lone exclamation mark is none. -/
def scalarTag (tag : Option String) : Option String := tag.filter (· ≠ "!")

/-- Reads a node. `block` says whether block collections may stand here, and `plain` whether a
sequence may that is not indented. -/
def node (p : Parser) (block plain : Bool) : Option (Event × Parser) := do
  match p.next with
  | .alias name => return (.alias name, p.drop.back)
  | _ =>
    let (anchor, tag, p) ← p.properties
    match p.next with
    | .blockEntry =>
      if plain then return (.sequenceStart anchor tag, p.goTo .plainSequence)
      else if anchor.isSome || tag.isSome then return (.scalar anchor tag "" .plain, p.back)
      else none
    | .scalar text style =>
      return (.scalar anchor (scalarTag tag) (.ofList text) style, p.drop.back)
    | .openSequence => return (.sequenceStart anchor tag, p.goTo .flowSequenceFirst)
    | .openMapping => return (.mappingStart anchor tag, p.goTo .flowMappingFirst)
    | .blockSequence =>
      if block then return (.sequenceStart anchor tag, p.goTo .blockSequenceFirst)
      else if anchor.isSome || tag.isSome then return (.scalar anchor tag "" .plain, p.back)
      else none
    | .blockMapping =>
      if block then return (.mappingStart anchor tag, p.goTo .blockMappingFirst)
      else if anchor.isSome || tag.isSome then return (.scalar anchor tag "" .plain, p.back)
      else none
    | .fault => none
    | _ =>
      if anchor.isSome || tag.isSome then return (.scalar anchor tag "" .plain, p.back)
      else none

/-- A node unless one of these tokens stands here, which leave it empty. -/
def nodeUnless (p : Parser) (stops : List Token) (block plain : Bool) (place : Place) :
    Option (Event × Parser) :=
  if p.next = .fault then none
  else if stops.contains p.next then some (emptyScalar, p.goTo place)
  else (p.later place).node block plain

def directives : (version : Bool) → List (List Char × List Char) → List Token →
    Option (List (List Char × List Char) × List Token)
  | version, handles, .version major minor :: rest =>
    if version || major != 1 || !(minor = 1 || minor = 2) then none
    else directives true handles rest
  | version, handles, .tagHandle handle expansion :: rest =>
    if handles.any fun h => h.1 == handle then none
    else directives version (handles ++ [(handle, expansion)]) rest
  | _, handles, rest => some (handles, rest)

def isDirective : Token → Bool
  | .version .. | .tagHandle .. => true
  | _ => false

/-- A document that begins with its directives or its start mark. -/
def explicitDocument (p : Parser) : Option (Event × Parser) := do
  let (handles, rest) ← directives false [] p.tokens
  match rest with
  | .documentStart :: rest =>
    return (.documentStart, ⟨rest, .documentContent, [.documentEnd], handles⟩)
  | _ => none

def step (p : Parser) : Option (Event × Parser) :=
  match p.place with
  | .implicitDocument =>
    if p.next = .fault then none
    else if p.next = .streamEnd then some (.streamEnd, p)
    else if isDirective p.next || p.next = .documentStart then p.explicitDocument
    else some (.documentStart, { p with place := .blockNode, stack := [.documentEnd] })
  | .document =>
    let p := { p with tokens := p.tokens.dropWhile (· = .documentEnd) }
    if p.next = .streamEnd then some (.streamEnd, p) else p.explicitDocument
  | .documentContent =>
    if p.next = .fault then none
    else if isDirective p.next || [.documentStart, .documentEnd, .streamEnd].contains p.next then
      some (emptyScalar, p.back)
    else p.node true false
  | .documentEnd =>
    if p.next = .fault then none
    else
      let p := if p.next = .documentEnd then p.drop else p
      some (.documentEnd, { p with place := .document, stack := [], handles := [] })
  | .blockNode => p.node true false
  | .blockSequenceFirst | .blockSequence =>
    let p := if p.place = .blockSequenceFirst then p.drop else p
    match p.next with
    | .blockEntry => p.drop.nodeUnless [.blockEntry, .blockEnd] true false .blockSequence
    | .blockEnd => some (.sequenceEnd, p.drop.back)
    | _ => none
  | .plainSequence =>
    match p.next with
    | .blockEntry =>
      p.drop.nodeUnless [.blockEntry, .key, .value, .blockEnd] true false .plainSequence
    | .fault => none
    | _ => some (.sequenceEnd, p.back)
  | .blockMappingFirst | .blockMappingKey =>
    let p := if p.place = .blockMappingFirst then p.drop else p
    match p.next with
    | .key => p.drop.nodeUnless [.key, .value, .blockEnd] true true .blockMappingValue
    | .blockEnd => some (.mappingEnd, p.drop.back)
    | _ => none
  | .blockMappingValue =>
    match p.next with
    | .value => p.drop.nodeUnless [.key, .value, .blockEnd] true true .blockMappingKey
    | .fault => none
    | _ => some (emptyScalar, p.goTo .blockMappingKey)
  | .flowSequenceFirst | .flowSequence =>
    let first := p.place = .flowSequenceFirst
    let p := if first then p.drop else p
    match p.next with
    | .closeSequence => some (.sequenceEnd, p.drop.back)
    | token =>
      if !first && token ≠ .flowEntry then none
      else
        let p := if first then p else p.drop
        match p.next with
        | .closeSequence => some (.sequenceEnd, p.drop.back)
        | .key => some (.mappingStart none none, p.drop.goTo .pairKey)
        | _ => (p.later .flowSequence).node false false
  | .pairKey =>
    if p.next = .fault then none
    else if [.value, .flowEntry, .closeSequence].contains p.next then
      some (emptyScalar, p.drop.goTo .pairValue)
    else (p.later .pairValue).node false false
  | .pairValue =>
    match p.next with
    | .value => p.drop.nodeUnless [.flowEntry, .closeSequence] false false .pairEnd
    | .fault => none
    | _ => some (emptyScalar, p.goTo .pairEnd)
  | .pairEnd => some (.mappingEnd, p.goTo .flowSequence)
  | .flowMappingFirst | .flowMappingKey =>
    let first := p.place = .flowMappingFirst
    let p := if first then p.drop else p
    match p.next with
    | .closeMapping => some (.mappingEnd, p.drop.back)
    | token =>
      if !first && token ≠ .flowEntry then none
      else
        let p := if first then p else p.drop
        match p.next with
        | .closeMapping => some (.mappingEnd, p.drop.back)
        | .key =>
          p.drop.nodeUnless [.value, .flowEntry, .closeMapping] false false .flowMappingValue
        | _ => (p.later .flowMappingEmptyValue).node false false
  | .flowMappingValue =>
    match p.next with
    | .value => p.drop.nodeUnless [.flowEntry, .closeMapping] false false .flowMappingKey
    | .fault => none
    | _ => some (emptyScalar, p.goTo .flowMappingKey)
  | .flowMappingEmptyValue =>
    if p.next = .fault then none else some (emptyScalar, p.goTo .flowMappingKey)

def run : (fuel : Nat) → Parser → List Event
  | 0, _ => [.fault]
  | fuel + 1, p =>
    match p.step with
    | none => [.fault]
    | some (.streamEnd, _) => [.streamEnd]
    | some (event, p) => event :: run fuel p

end Parser

/-- The events of a text. Every token gives rise to at most four. -/
def events (text : String) : List Event :=
  let tokens := tokens text
  Parser.run (4 * tokens.length + 4) (.start tokens)

end PuzzleGate.Yaml
