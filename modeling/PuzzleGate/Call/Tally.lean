import Mathlib.Data.List.Basic
import PuzzleGate.Call.Elements
import PuzzleGate.Call.Pattern

/-!
# Counting with an index

The calls of a text can be counted in one pass that keeps an index of the names it has met. A name
in the index is counted in the place that the index gives, any other name gets a place of its own
at the end. A place outside the counts would break the pass off.
-/

namespace PuzzleGate.Call

/-- The counts so far, and the place in them of each name. -/
structure Tally where
  counts : Array ElementCount
  index : Std.HashMap String Nat

def ElementCount.again (entry : ElementCount) : ElementCount :=
  { entry with occurrences := entry.occurrences + 1 }

namespace Tally

def empty : Tally := ⟨#[], ∅⟩

/-- Counts a name; none when its place is outside the counts. -/
def add (tally : Tally) (name : String) : Option Tally :=
  match tally.index[name]? with
  | some place =>
    if place < tally.counts.size then
      some { tally with counts := tally.counts.modify place ElementCount.again }
    else none
  | none => some ⟨tally.counts.push ⟨name, 1⟩, tally.index.insert name tally.counts.size⟩

def addAll (tally : Tally) (names : List String) : Option Tally := names.foldlM add tally

end Tally

/-- The counts of a text, taken from its matches in one pass. -/
def tallyCounts? (text : String) : Option (List ElementCount) :=
  (Tally.empty.addAll ((matchAll text).map Match.name)).map fun tally => tally.counts.toList

end PuzzleGate.Call
