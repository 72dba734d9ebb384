import PuzzleGate.Text.Blank
import PuzzleGate.Text.Lines

/-!
# Allow-lists

An allow-list is a set of element names, kept in increasing order. Names are trimmed when a list
is made, and blank ones are dropped.
-/

namespace PuzzleGate

/-- Adds a name to an increasing list of names, unless it is there. -/
def insertName (name : String) : List String → List String
  | [] => [name]
  | n :: names =>
    if name < n then name :: n :: names
    else if name = n then n :: names
    else n :: insertName name names

structure AllowList where
  names : List String
deriving DecidableEq, Repr

namespace AllowList

def ofNames (names : List String) : AllowList :=
  ⟨((names.map Text.trim).filter (· ≠ "")).foldl (fun list name => insertName name list) []⟩

def contains (list : AllowList) (name : String) : Bool := list.names.contains name

def size (list : AllowList) : Nat := list.names.length

def isEmpty (list : AllowList) : Bool := list.names.isEmpty

/-- Those of the elements that the list does not have, in the given order. -/
def disallowed (list : AllowList) (elements : List String) : List String :=
  elements.filter fun name => !list.contains name

/-- The elements permitted when no list is given: what the runtime puts around every document,
what documents render, raw tags in common use, and the tags of typeset formulas. -/
def builtInElements : List String :=
  ["MDXLayout", "_Fragment", "_createMdxContent",
    "a", "blockquote", "br", "code", "del", "em", "h1", "h2", "h3", "h4", "h5", "h6", "hr", "img",
    "input", "li", "ol", "p", "pre", "section", "strong", "sup", "table", "tbody", "td", "th",
    "thead", "tr", "ul",
    "div", "span",
    "annotation", "math", "menclose", "mfrac", "mi", "mn", "mo", "mover", "mpadded", "mroot",
    "mrow", "mspace", "msqrt", "mstyle", "msub", "msubsup", "msup", "mtable", "mtd", "mtext",
    "mtr", "munder", "munderover", "semantics", "svg", "path", "line"]

def builtIn : AllowList := ofNames builtInElements

/-- The names in a text with one name a line, where `#` starts a comment. -/
def namesOfLines (text : String) : List String :=
  (Text.lines text.toList).map fun line => .ofList (line.takeWhile (· ≠ '#'))

end AllowList

end PuzzleGate
