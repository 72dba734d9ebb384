import Mathlib.Data.List.DropRight
import PuzzleGate.Proofs.Path.Prefix

/-!
# Absolute paths and their parents

A path that is taken relative to an absolute one is absolute, and an absolute path stays what it is.
The parent of an absolute path is absolute and has all of its components but the last one.
-/

namespace PuzzleGate.Path

variable {base path : Path}

lemma join_of_isAbsolute (base : Path) (h : path.isAbsolute = true) : base.join path = path := by
  rw [join, if_pos h]

lemma bytes_ne_of_isAbsolute (h : path.isAbsolute = true) : path.bytes ≠ [] := by
  intro hempty
  rw [isAbsolute, hempty] at h
  cases h

lemma isAbsolute_join_of_isAbsolute (h : base.isAbsolute = true) (path : Path) :
    (base.join path).isAbsolute = true := by
  cases hpath : path.isAbsolute with
  | true => rw [join_of_isAbsolute base hpath, hpath]
  | false => rw [isAbsolute_join (bytes_ne_of_isAbsolute h) hpath, h]

lemma isAbsolute_slash_cons (bytes : List UInt8) : isAbsolute ⟨slash :: bytes⟩ = true := by
  simp [isAbsolute]

lemma exists_component?_getLast {segments : List FileName} (h : trimSegments segments ≠ []) :
    ∃ c, component? ((trimSegments segments).getLast h) = some c := by
  have hmeans : ¬ isIdle ((trimSegments segments).getLast h) = true :=
    List.rdropWhile_last_not isIdle segments h
  rw [← component?_eq_none_iff] at hmeans
  exact Option.ne_none_iff_exists'.mp hmeans

lemma components_slash_joinSegments {segments : List FileName}
    (h : ∀ segment ∈ segments, slash ∉ segment) :
    (Path.mk (slash :: joinSegments segments)).components =
      .root :: segments.filterMap component? := by
  rw [components_slash_cons ⟨joinSegments segments⟩]
  cases segments with
  | nil => rfl
  | cons first rest =>
    have hsplit : (Path.mk (joinSegments (first :: rest))).segments = first :: rest := by
      rw [Path.segments, Text.splitOn_eq]
      exact List.splitOn_intercalate slash h (List.cons_ne_nil first rest)
    rw [hsplit]

lemma components_of_isAbsolute (h : path.isAbsolute = true) :
    path.components = .root :: path.segments.tail.filterMap component? := by
  obtain ⟨rest, hrest⟩ := List.head?_eq_some_iff.mp (head?_segments_of_isAbsolute h)
  rw [components_eq_append, if_pos h, hrest]
  rfl

/-- The path with these segments but for the last one. -/
def ofFront (body : List FileName) : Path :=
  ⟨slash :: joinSegments (trimSegments body.dropLast)⟩

lemma parent?_of_isAbsolute (h : path.isAbsolute = true)
    (hne : trimSegments path.segments.tail ≠ []) :
    path.parent? = some (ofFront (trimSegments path.segments.tail)) := by
  rw [parent?, if_pos h]
  split
  · rename_i hnil
    exact absurd hnil hne
  · rfl

lemma components_ofFront {body : List FileName} (h : ∀ segment ∈ body, slash ∉ segment) :
    (ofFront body).components = .root :: body.dropLast.filterMap component? := by
  have hfront : ∀ segment ∈ trimSegments body.dropLast, slash ∉ segment := fun segment hsegment =>
    h segment <| (List.dropLast_sublist body).subset <|
      (trimSegments_isPrefix body.dropLast).subset hsegment
  rw [ofFront, components_slash_joinSegments hfront, filterMap_trimSegments]

/-- An absolute path other than the root directory lies in its parent. -/
theorem exists_parent?_of_isAbsolute (h : path.isAbsolute = true)
    (hroot : path.components ≠ [.root]) : ∃ parent c, path.parent? = some parent ∧
      parent.isAbsolute = true ∧ path.components = parent.components ++ [c] := by
  have hmeaning := filterMap_trimSegments path.segments.tail
  have hslash : ∀ segment ∈ trimSegments path.segments.tail, slash ∉ segment :=
    fun segment hsegment => Text.not_mem_of_mem_splitOn <| List.mem_of_mem_tail <|
      (trimSegments_isPrefix _).subset hsegment
  have hne : trimSegments path.segments.tail ≠ [] := by
    intro hnil
    rw [components_of_isAbsolute h, ← hmeaning, hnil] at hroot
    exact hroot rfl
  obtain ⟨c, hc⟩ := exists_component?_getLast hne
  refine ⟨_, c, parent?_of_isAbsolute h hne, isAbsolute_slash_cons _, ?_⟩
  rw [components_of_isAbsolute h, ← hmeaning, components_ofFront hslash, List.cons_append]
  conv_lhs => rw [← List.dropLast_append_getLast hne]
  rw [List.filterMap_append, List.filterMap_cons_some hc]
  rfl

end PuzzleGate.Path
