/-!
# Splitting at a separator

`splitOn` keeps every piece, so that joining the pieces with the separator gives the whole back.
Lines end at a line feed; a carriage return right before it belongs to the line end.
-/

namespace PuzzleGate.Text

/-- The pieces between occurrences of `sep`; there is always at least one. -/
def splitOn {α : Type} [DecidableEq α] (sep : α) : List α → List (List α)
  | [] => [[]]
  | c :: s =>
    if c = sep then [] :: splitOn sep s
    else match splitOn sep s with
      | [] => [[c]]
      | piece :: pieces => (c :: piece) :: pieces

def dropReturn (line : List Char) : List Char :=
  if line.getLast? = some '\r' then line.dropLast else line

/-- Closes every piece but the last as a line; the last piece is a line when it is not empty. -/
def closeLines : List (List Char) → List (List Char)
  | [] => []
  | [last] => if last.isEmpty then [] else [last]
  | piece :: pieces => dropReturn piece :: closeLines pieces

def lines (s : List Char) : List (List Char) :=
  closeLines (splitOn '\n' s)

end PuzzleGate.Text
