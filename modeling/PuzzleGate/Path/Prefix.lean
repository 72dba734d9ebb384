import PuzzleGate.Path.Basic

/-!
# What is left of a path behind another

A path that begins with the components of another goes on with a rest. The rest is what is written
behind those components, a path again, which is read anew. Idle segments at its ends are left out,
so that the rest does not begin with a slash or a dot that means nothing where it stands.
-/

namespace PuzzleGate.Path

/-- Reads a component off the front of these segments, passing over idle ones. -/
def readComponent? : List FileName → Option (Component × List FileName)
  | [] => none
  | segment :: rest => match component? segment with
    | some component => some (component, rest)
    | none => readComponent? rest

/-- The segments behind those that are read as these components. -/
def segmentsBehind? : List Component → List FileName → Option (List FileName)
  | [], segments => some segments
  | c :: components, segments => match readComponent? segments with
    | some (d, rest) => if c = d then segmentsBehind? components rest else none
    | none => none

/-- The path with these segments but for idle ones at its ends. -/
def ofSegments (segments : List FileName) : Path :=
  ⟨joinSegments (trimSegments (segments.dropWhile isIdle))⟩

/-- What is left of a path behind a root, if it begins with it. Behind an empty root that is the
whole path. -/
def behind? (path root : Path) : Option Path :=
  match root.components with
  | [] => some path
  | first :: rest =>
    if path.isAbsolute then
      if first = .root then (segmentsBehind? rest path.segments.tail).map ofSegments else none
    else match path.segments with
      | [0x2e] :: segments =>
        if first = .here then (segmentsBehind? rest segments).map ofSegments else none
      | segments => (segmentsBehind? (first :: rest) segments).map ofSegments

end PuzzleGate.Path
