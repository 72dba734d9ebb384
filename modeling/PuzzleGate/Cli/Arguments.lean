import PuzzleGate.Cli.Request

/-!
# Command lines

A command line is options, the name of a subcommand, and the words and options of the subcommand
in any order. Words are read from left to right and each is judged when it is read, so the first
fault counts, and a question for the version is answered if no fault stands before it. Behind a
double hyphen every word stands for itself.
-/

namespace PuzzleGate.Cli

inductive Subcommand where
  | validate
  | elements
  | allowList
deriving DecidableEq, Repr

/-- Options that have a value. -/
inductive OptionName where
  | config
  | root
  | allowList
  | format
deriving DecidableEq, Repr

/-- Options without a value. -/
inductive Flag where
  | verbose
  | compiled
  | help
  | version
deriving DecidableEq, Repr

/-- What is wrong with a command line. -/
inductive Misuse where
  | noSubcommand
  | unknownWord (word : String)
  | unknownOption (word : String)
  | repeated (word : String)
  | valueMissing (option : OptionName)
  | valueUnexpected (word : String)
  | badValue (option : OptionName) (value : String)
  | emptyWord
  | wordMissing
deriving DecidableEq, Repr

/-- Why the reading of a command line ends early. -/
inductive Stop where
  | help
  | version
  | misuse (fault : Misuse)
deriving DecidableEq, Repr

namespace Subcommand

def ofName? : String → Option Subcommand
  | "validate" => some .validate
  | "elements" => some .elements
  | "allowlist" => some .allowList
  | _ => none

/-- The subcommand's options; the options of the whole program are options of it as well. -/
def options : Subcommand → List OptionName
  | .validate => [.config, .root, .allowList, .format]
  | .elements => [.config, .format]
  | .allowList => [.config, .allowList, .format]

def flags : Subcommand → List Flag
  | .elements => [.verbose, .help, .compiled]
  | .validate | .allowList => [.verbose, .help]

def takesWord (subcommand : Subcommand) (count : Nat) : Bool :=
  subcommand = .allowList || count = 0

end Subcommand

def optionsAt (subcommand : Option Subcommand) : List OptionName :=
  (subcommand.map Subcommand.options).getD [.config]

def flagsAt (subcommand : Option Subcommand) : List Flag :=
  (subcommand.map Subcommand.flags).getD [.verbose, .help, .version]

def OptionName.long : OptionName → String
  | .config => "config"
  | .root => "root"
  | .allowList => "allow-list"
  | .format => "format"

def Flag.long : Flag → String
  | .verbose => "verbose"
  | .compiled => "compiled"
  | .help => "help"
  | .version => "version"

def Flag.letter? : Flag → Option Char
  | .verbose => some 'v'
  | .help => some 'h'
  | .version => some 'V'
  | .compiled => none

def Misuse.message : Misuse → String
  | .noSubcommand => "a subcommand is required"
  | .unknownWord word => s!"unexpected argument '{word}'"
  | .unknownOption word => s!"unknown option '{word}'"
  | .repeated word => s!"'{word}' cannot be used multiple times"
  | .valueMissing option => s!"a value is required for '--{option.long}'"
  | .valueUnexpected word => s!"'{word}' takes no value"
  | .badValue option value => s!"invalid value '{value}' for '--{option.long}'"
  | .emptyWord => "a path must not be empty"
  | .wordMissing => "a file is required"

def Format.ofName? : String → Option Format
  | "text" => some .text
  | "json" => some .json
  | _ => none

/-- What was read on one side of the subcommand. -/
structure Level where
  values : List (OptionName × String) := []
  flags : List Flag := []

structure Draft where
  subcommand : Option Subcommand := none
  /-- What stands in front of the subcommand, once that is known. -/
  outer : Level := {}
  level : Level := {}
  words : List String := []
  /-- The option that waits for its value. -/
  waiting : Option OptionName := none
  /-- Whether options have ended. -/
  optionsEnded : Bool := false

namespace Draft

def accepts (option : OptionName) (value : String) : Bool :=
  match option with
  | .format => (Format.ofName? value).isSome
  | .config | .root | .allowList => value ≠ ""

def setValue (draft : Draft) (option : OptionName) (value : String) : Except Stop Draft :=
  if (draft.level.values.lookup option).isSome then .error (.misuse (.repeated option.long))
  else if !accepts option value then .error (.misuse (.badValue option value))
  else .ok
    { draft with
      waiting := none
      level := { draft.level with values := draft.level.values ++ [(option, value)] } }

def setFlag (draft : Draft) (flag : Flag) : Except Stop Draft :=
  match flag with
  | .help => .error .help
  | .version => .error .version
  | .compiled =>
    if draft.level.flags.contains flag then .error (.misuse (.repeated flag.long))
    else .ok { draft with level := { draft.level with flags := flag :: draft.level.flags } }
  | .verbose => .ok { draft with level := { draft.level with flags := flag :: draft.level.flags } }

def readLong (draft : Draft) (text : List Char) : Except Stop Draft :=
  let name := String.ofList (text.takeWhile (· ≠ '='))
  let value : Option String :=
    if text.contains '=' then some (.ofList (text.drop (name.length + 1))) else none
  match (optionsAt draft.subcommand).find? (·.long = name),
    (flagsAt draft.subcommand).find? (·.long = name), value with
  | some option, _, some value => draft.setValue option value
  | some option, _, none => .ok { draft with waiting := some option }
  | none, some _, some _ => .error (.misuse (.valueUnexpected name))
  | none, some flag, none => draft.setFlag flag
  | none, none, _ => .error (.misuse (.unknownOption ("--" ++ name)))

def readLetter (draft : Draft) (letter : Char) : Except Stop Draft :=
  match (flagsAt draft.subcommand).find? (·.letter? = some letter) with
  | some flag => draft.setFlag flag
  | none => .error (.misuse (.unknownOption (.ofList ['-', letter])))

def readPlain (draft : Draft) (word : String) : Except Stop Draft :=
  match draft.subcommand with
  | some subcommand =>
    if !subcommand.takesWord draft.words.length then .error (.misuse (.unknownWord word))
    else if word = "" && subcommand ≠ .allowList then .error (.misuse .emptyWord)
    else .ok { draft with words := draft.words ++ [word] }
  | none =>
    if draft.optionsEnded then .error (.misuse (.unknownWord word))
    else if word = "help" then .error .help
    else match Subcommand.ofName? word with
      | some subcommand =>
        .ok { draft with subcommand := some subcommand, outer := draft.level, level := {} }
      | none => .error (.misuse (.unknownWord word))

def read (draft : Draft) (word : String) : Except Stop Draft :=
  match draft.waiting, draft.optionsEnded, word.toList with
  | some option, _, '-' :: _ :: _ => .error (.misuse (.valueMissing option))
  | some option, _, _ => draft.setValue option word
  | none, true, _ => draft.readPlain word
  | none, false, ['-', '-'] => .ok { draft with optionsEnded := true }
  | none, false, '-' :: '-' :: text => draft.readLong text
  | none, false, '-' :: letter :: letters => (letter :: letters).foldlM readLetter draft
  | none, false, _ => draft.readPlain word

def value? (draft : Draft) (option : OptionName) : Option String :=
  draft.level.values.lookup option

def path? (draft : Draft) (option : OptionName) : Option Path :=
  (draft.value? option).map Path.ofText

def format (draft : Draft) : Format := ((draft.value? .format).bind Format.ofName?).getD .text

def request (draft : Draft) : Subcommand → Except Stop Request
  | .validate =>
    .ok <| .validate
      { path := draft.words.head?.map Path.ofText
        root := draft.path? .root
        allowList := draft.path? .allowList
        format := draft.format }
  | .elements => match draft.words with
    | [] => .error (.misuse .wordMissing)
    | file :: _ =>
      .ok <| .elements
        { file := .ofText file
          compiled := draft.level.flags.contains .compiled
          format := draft.format }
  | .allowList =>
    .ok <| .allowList
      { names := draft.words
        allowList := draft.path? .allowList
        format := draft.format }

/-- Options behind the subcommand count more than those in front of it. -/
def finish (draft : Draft) : Except Stop Invocation := do
  match draft.waiting, draft.subcommand with
  | some option, _ => .error (.misuse (.valueMissing option))
  | none, none => .error (.misuse .noSubcommand)
  | none, some subcommand =>
    let config := (draft.level.values.lookup .config).or (draft.outer.values.lookup .config)
    let verbosity := (draft.level.flags ++ draft.outer.flags).count .verbose
    return ⟨config.map Path.ofText, verbosity, ← draft.request subcommand⟩

end Draft

def Invocation.ofArguments (arguments : List String) : Except Stop Invocation := do
  (← arguments.foldlM Draft.read {}).finish

end PuzzleGate.Cli
