import PuzzleGate.Text.Unshown

/-!
# Quoted texts

Messages quote the text they complain about, so that it stays on one line and every character
can be told apart: quotes and backslashes get a backslash, four controls have short names, and
the other characters without a glyph are named by their code point.
-/

namespace PuzzleGate.Text

def codePointDigits (c : Char) : List Char :=
  Nat.toDigits 16 c.toNat

def quoteChar (c : Char) : List Char :=
  if c = '"' then ['\\', '"']
  else if c = '\\' then ['\\', '\\']
  else if c = '\t' then ['\\', 't']
  else if c = '\r' then ['\\', 'r']
  else if c = '\n' then ['\\', 'n']
  else if c = '\x00' then ['\\', '0']
  else if isUnshown c then ['\\', 'u', '\x7b'] ++ codePointDigits c ++ ['\x7d']
  else [c]

def quoted (s : String) : String :=
  .ofList ('"' :: s.toList.flatMap quoteChar ++ ['"'])

end PuzzleGate.Text
