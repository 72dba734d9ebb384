/-!
# Scripts

A script is a sequence of pipelines, each run always or only when the one before it succeeded or
failed. The words of a script may name variables and other scripts, whose output they stand for;
those are kept as texts until they are run. Scripts are read in one pass over their characters.
-/

namespace PuzzleGate.Command

/-- A part of a word; quoted values are not split into words again. -/
inductive Part where
  | text (text : String)
  | variable (quoted : Bool) (name : String)
  | output (quoted : Bool) (script : String)
deriving DecidableEq, Repr

abbrev Word := List Part

inductive Token where
  | word (word : Word)
  /-- A punctuation sign, with the number written directly before it. -/
  | sign (number : Option Nat) (text : String)
  /-- A script in parentheses. -/
  | group (script : String)
deriving DecidableEq, Repr

/-- What the text up to a closing parenthesis is for. -/
inductive Purpose where
  | group
  | output (quoted : Bool)

/-- Where a reader of a script is. -/
inductive Mode where
  | plain
  | single
  | double
  | escape (quoted : Bool)
  | comment
  /-- Behind a dollar sign. -/
  | dollar (quoted : Bool)
  | variable (quoted : Bool) (name : String)
  | braced (quoted : Bool) (name : String)
  /-- Behind the first character of a sign. -/
  | sign (number : Option Nat) (first : Char)
  /-- Inside parentheses, `depth` of which were opened in the text; `quote` is the quotation mark
  that is to be closed, and a backslash protects the next character. -/
  | nested (purpose : Purpose) (depth : Nat) (quote : Option Char) (text : List Char)

structure Lexer where
  tokens : List Token
  /-- The word that is being read. -/
  current : Option Word
  mode : Mode

namespace Lexer

def add (lexer : Lexer) (part : Part) : Lexer :=
  { lexer with current := some (lexer.current.getD [] ++ [part]) }

def addChar (lexer : Lexer) (c : Char) : Lexer :=
  match lexer.current.getD [] |>.reverse with
  | .text text :: before =>
    { lexer with current := some (before.reverse ++ [.text (text.push c)]) }
  | _ => lexer.add (.text (.singleton c))

def goOn (lexer : Lexer) (mode : Mode) : Lexer := { lexer with mode }

def homeMode (quoted : Bool) : Mode := if quoted then .double else .plain

def endWord (lexer : Lexer) : Lexer :=
  match lexer.current with
  | some word => { lexer with tokens := lexer.tokens ++ [.word word], current := none }
  | none => lexer

def addSign (lexer : Lexer) (number : Option Nat) (text : String) : Lexer :=
  { lexer with tokens := lexer.tokens ++ [.sign number text], mode := .plain }

def takeNumber (lexer : Lexer) : Option Nat × Lexer :=
  match lexer.current with
  | some [.text text] =>
    if text ≠ "" && text.toList.all Char.isDigit then (text.toNat?, { lexer with current := none })
    else (none, lexer.endWord)
  | _ => (none, lexer.endWord)

def plainStep (lexer : Lexer) (c : Char) : Lexer :=
  if c = ' ' || c = '\t' then lexer.endWord
  else if c = '\n' || c = ';' then lexer.endWord.addSign none ";"
  else if c = '\'' then (lexer.add (.text "")).goOn .single
  else if c = '"' then (lexer.add (.text "")).goOn .double
  else if c = '\\' then lexer.goOn (.escape false)
  else if c = '$' then lexer.goOn (.dollar false)
  else if c = '&' || c = '|' then lexer.endWord.goOn (.sign none c)
  else if c = '<' || c = '>' then
    let (number, lexer) := lexer.takeNumber
    lexer.goOn (.sign number c)
  else if c = '(' then lexer.endWord.goOn (.nested .group 0 none [])
  else if c = ')' then lexer.endWord.addSign none ")"
  else if c = '#' && lexer.current.isNone then lexer.goOn .comment
  else lexer.addChar c

def doubleStep (lexer : Lexer) (c : Char) : Lexer :=
  if c = '"' then lexer.goOn .plain
  else if c = '\\' then lexer.goOn (.escape true)
  else if c = '$' then lexer.goOn (.dollar true)
  else lexer.addChar c

def homeStep (quoted : Bool) (lexer : Lexer) (c : Char) : Lexer :=
  let lexer := lexer.goOn (homeMode quoted)
  if quoted then lexer.doubleStep c else lexer.plainStep c

def isNameChar (c : Char) : Bool := c.isAlphanum || c = '_'

def isSignName (c : Char) : Bool := c = '$' || c = '?' || c = '#' || c = '@' || c = '*'

def isSign (first second : Char) : Bool :=
  [('&', '&'), ('|', '|'), ('>', '>'), ('>', '&'), ('<', '&')].contains (first, second)

/-- Puts what was read up to a closing parenthesis to its purpose. -/
def endNested (lexer : Lexer) (purpose : Purpose) (text : List Char) : Lexer :=
  match purpose with
  | .group =>
    { lexer with tokens := lexer.tokens ++ [.group (.ofList text.reverse)], mode := .plain }
  | .output quoted => (lexer.add (.output quoted (.ofList text.reverse))).goOn (homeMode quoted)

def step (lexer : Lexer) (c : Char) : Lexer :=
  match lexer.mode with
  | .plain => lexer.plainStep c
  | .single => if c = '\'' then lexer.goOn .plain else lexer.addChar c
  | .double => lexer.doubleStep c
  | .comment => if c = '\n' then (lexer.goOn .plain).plainStep c else lexer
  | .escape quoted =>
    let lexer := lexer.goOn (homeMode quoted)
    if c = '\n' then lexer
    else if quoted && !(['"', '\\', '$', '\x60'].contains c) then (lexer.addChar '\\').addChar c
    else (lexer.add (.text "")).addChar c
  | .dollar quoted =>
    if c = '(' then lexer.goOn (.nested (.output quoted) 0 none [])
    else if c = '\x7b' then lexer.goOn (.braced quoted "")
    else if isSignName c then
      (lexer.add (.variable quoted (.singleton c))).goOn (homeMode quoted)
    else if c.isDigit then
      (lexer.add (.variable quoted (.singleton c))).goOn (homeMode quoted)
    else if isNameChar c then lexer.goOn (.variable quoted (.singleton c))
    else homeStep quoted (lexer.addChar '$') c
  | .variable quoted name =>
    if isNameChar c then lexer.goOn (.variable quoted (name.push c))
    else homeStep quoted (lexer.add (.variable quoted name)) c
  | .braced quoted name =>
    if c = '\x7d' then (lexer.add (.variable quoted name)).goOn (homeMode quoted)
    else lexer.goOn (.braced quoted (name.push c))
  | .sign number first =>
    if isSign first c then lexer.addSign number (.ofList [first, c])
    else (lexer.addSign number (.singleton first)).plainStep c
  | .nested purpose depth quote text =>
    let inside := fun depth quote => lexer.goOn (.nested purpose depth quote (c :: text))
    if text.head? = some '\\' && quote ≠ some '\'' then inside depth quote
    else match quote with
      | some mark => inside depth (if c = mark then none else quote)
      | none =>
        if c = '\'' || c = '"' then inside depth (some c)
        else if c = '(' then inside (depth + 1) none
        else if c = ')' then match depth with
          | 0 => lexer.endNested purpose text
          | depth + 1 => inside depth none
        else inside depth none

/-- Ends the text. Quotation marks and parentheses must be closed. -/
def finish? (lexer : Lexer) : Option (List Token) :=
  match lexer.mode with
  | .plain | .comment => some lexer.endWord.tokens
  | .dollar false | .escape false => some (lexer.addChar '$').endWord.tokens
  | .variable false name => some (lexer.add (.variable false name)).endWord.tokens
  | .sign number first => some (lexer.addSign number (.singleton first)).tokens
  | _ => none

end Lexer

def tokens? (script : String) : Option (List Token) :=
  (script.toList.foldl Lexer.step ⟨[], none, .plain⟩).finish?

inductive Direction where
  | read
  | write
  | append
  /-- The same way as another channel. -/
  | copy
deriving DecidableEq, Repr

/-- A channel is sent another way. -/
structure Redirection where
  channel : Nat
  direction : Direction
  target : Word
deriving Repr

inductive Action where
  | words (words : List Word)
  | group (script : String)
deriving Repr

structure Stage where
  action : Action
  redirections : List Redirection
deriving Repr

structure Pipeline where
  negated : Bool
  stages : List Stage
deriving Repr

/-- When a pipeline is run. -/
inductive Joint where
  | always
  | afterSuccess
  | afterFailure
deriving DecidableEq, Repr

structure Entry where
  joint : Joint
  pipeline : Pipeline
deriving Repr

abbrev Script := List Entry

namespace Script

/-- What was read so far. -/
structure Draft where
  entries : List Entry
  joint : Joint
  negated : Bool
  stages : List Stage
  stage : Stage
  /-- The redirection that waits for its target. -/
  waiting : Option (Nat × Direction)

def emptyStage : Stage := ⟨.words [], []⟩

def start : Draft := ⟨[], .always, false, [], emptyStage, none⟩

def isIdle (stage : Stage) : Bool :=
  match stage.action with
  | .words [] => stage.redirections.isEmpty
  | _ => false

namespace Draft

/-- Ends a pipeline; the next one is run as `joint` says. -/
def endPipeline? (draft : Draft) (joint : Joint) : Option Draft :=
  if draft.waiting.isSome then none
  else if isIdle draft.stage then
    if draft.stages.isEmpty && !draft.negated && joint = .always then
      some (if draft.joint = .always then { draft with joint } else draft)
    else none
  else
    some ⟨draft.entries ++ [⟨draft.joint, ⟨draft.negated, draft.stages ++ [draft.stage]⟩⟩],
      joint, false, [], emptyStage, none⟩

def addWord? (draft : Draft) (word : Word) : Option Draft :=
  match draft.waiting, draft.stage.action with
  | some (channel, direction), _ =>
    some
      { draft with
        waiting := none
        stage :=
          { draft.stage with
            redirections := draft.stage.redirections ++ [⟨channel, direction, word⟩] } }
  | none, .words [] =>
    if word = [.text "!"] && draft.stages.isEmpty then some { draft with negated := !draft.negated }
    else some { draft with stage := { draft.stage with action := .words [word] } }
  | none, .words words =>
    some { draft with stage := { draft.stage with action := .words (words ++ [word]) } }
  | none, .group _ => none

/-- The direction that a sign stands for, with its usual channel. -/
def direction? : String → Option (Nat × Direction)
  | "<" => some (0, .read)
  | ">" => some (1, .write)
  | ">>" => some (1, .append)
  | ">&" => some (1, .copy)
  | "<&" => some (0, .copy)
  | _ => none

def step? (draft : Draft) : Token → Option Draft
  | .word word => draft.addWord? word
  | .group script =>
    if isIdle draft.stage && draft.waiting.isNone then
      some { draft with stage := ⟨.group script, []⟩ }
    else none
  | .sign _ ";" => draft.endPipeline? .always
  | .sign _ "&&" => draft.endPipeline? .afterSuccess
  | .sign _ "||" => draft.endPipeline? .afterFailure
  | .sign _ "|" =>
    if isIdle draft.stage || draft.waiting.isSome then none
    else some { draft with stages := draft.stages ++ [draft.stage], stage := emptyStage }
  | .sign number text => match direction? text, draft.waiting with
    | some (channel, direction), none =>
      some { draft with waiting := some (number.getD channel, direction) }
    | _, _ => none

end Draft

def ofText? (text : String) : Option Script := do
  let draft ← (← tokens? text).foldlM Draft.step? start
  let draft ← draft.endPipeline? .always
  if draft.joint = .always then some draft.entries else none

end Script

end PuzzleGate.Command
