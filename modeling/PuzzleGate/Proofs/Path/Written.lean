import PuzzleGate.Path.Prefix
import PuzzleGate.Proofs.Path.Basic

/-!
# Components written as a path

Only the first component of a path may be the root directory or the directory itself; the others
are names or lead up. Components that are so can be written with slashes between them, and are what
is read when that is taken for a path.
-/

namespace PuzzleGate.Path

/-- The component may stand behind others. -/
inductive Component.IsInner : Component → Prop
  | above : IsInner .above
  | name {name : FileName} (h : IsPlainName name) : IsInner (.name name)

/-- The components may be those of a path. -/
inductive AreComponents : List Component → Prop
  | root {inner : List Component} (h : ∀ c ∈ inner, c.IsInner) : AreComponents (.root :: inner)
  | here {inner : List Component} (h : ∀ c ∈ inner, c.IsInner) : AreComponents (.here :: inner)
  | inner {inner : List Component} (h : ∀ c ∈ inner, c.IsInner) : AreComponents inner

lemma component?_eq_none_iff {segment : FileName} :
    component? segment = none ↔ isIdle segment = true := by
  unfold component? isIdle
  split_ifs with hidle hdots
  · exact ⟨fun _ => hidle, fun _ => rfl⟩
  · simp [hdots]
  · simpa using hidle

lemma component?_bytes {c : Component} (h : c.IsInner) : component? c.bytes = some c := by
  cases h with
  | above => rfl
  | name h => exact component?_plain h

lemma Component.IsInner.no_slash {c : Component} (h : c.IsInner) : slash ∉ c.bytes := by
  cases h with
  | above => decide
  | name h => exact h.no_slash

lemma Component.IsInner.not_isIdle {c : Component} (h : c.IsInner) :
    isIdle c.bytes = false := by
  rw [← Bool.not_eq_true, ← component?_eq_none_iff, component?_bytes h]
  exact Option.some_ne_none c

lemma Component.IsInner.bytes_ne_nil {c : Component} (h : c.IsInner) : c.bytes ≠ [] := by
  intro hnil
  have hidle := h.not_isIdle
  rw [hnil] at hidle
  cases hidle

lemma isInner_of_component? {segment : FileName} {c : Component} (hslash : slash ∉ segment)
    (h : component? segment = some c) : c.IsInner := by
  unfold component? at h
  split_ifs at h with hidle hdots
  · obtain rfl := Option.some.inj h
    exact .above
  · obtain rfl := Option.some.inj h
    obtain ⟨hempty, hdot⟩ : segment ≠ [] ∧ segment ≠ [dot] := by simpa using hidle
    exact .name ⟨hempty, hdot, hdots, hslash⟩

lemma isInner_of_mem_segments {path : Path} {c : Component}
    (h : c ∈ path.segments.filterMap component?) : c.IsInner := by
  obtain ⟨segment, hsegment, hc⟩ := List.mem_filterMap.mp h
  exact isInner_of_component? (Text.not_mem_of_mem_splitOn hsegment) hc

theorem areComponents_components (path : Path) : AreComponents path.components := by
  rw [components_eq_append]
  split_ifs
  · exact .root fun c hc => isInner_of_mem_segments hc
  · exact .here fun c hc => isInner_of_mem_segments hc
  · exact .inner fun c hc => isInner_of_mem_segments hc

/-- The components with slashes between them. -/
def slashed (components : List Component) : Path :=
  ⟨[slash].intercalate (components.map Component.bytes)⟩

lemma segments_slashed {components : List Component} (hne : components ≠ [])
    (h : ∀ c ∈ components, slash ∉ c.bytes) :
    (slashed components).segments = components.map Component.bytes := by
  rw [segments, Text.splitOn_eq, slashed]
  exact List.splitOn_intercalate slash (by simpa using h) (by simpa using hne)

lemma map_text (components : List Component) : components.map Component.text =
    (components.map Component.bytes).map Text.Utf8.lossy := by
  rw [List.map_map]
  rfl

lemma text_slashed (components : List Component) :
    (slashed components).text = "/".intercalate (components.map Component.text) := by
  rw [text, slashed, Text.Utf8.lossy_intercalate, map_text]

lemma filterMap_bytes {inner : List Component} (h : ∀ c ∈ inner, c.IsInner) :
    (inner.map Component.bytes).filterMap component? = inner := by
  rw [List.filterMap_map]
  calc inner.filterMap (component? ∘ Component.bytes)
      = inner.filterMap some := List.filterMap_congr fun c hc => component?_bytes (h c hc)
    _ = inner := List.filterMap_some

lemma filterMap_segments_slashed {inner : List Component} (h : ∀ c ∈ inner, c.IsInner) :
    (slashed inner).segments.filterMap component? = inner := by
  cases inner with
  | nil => rfl
  | cons c inner =>
    rw [segments_slashed (List.cons_ne_nil c inner) fun d hd => (h d hd).no_slash,
      filterMap_bytes h]

lemma head?_segments_of_isAbsolute {path : Path} (h : path.isAbsolute = true) :
    path.segments.head? = some [] := by
  have hslash : path.bytes.head? = some slash := by simpa [isAbsolute] using h
  obtain ⟨rest, hbytes⟩ := List.head?_eq_some_iff.mp hslash
  rw [segments, hbytes]
  rfl

lemma isAbsolute_of_head? {path : Path} {first : FileName}
    (hhead : path.segments.head? = some first) (hne : first ≠ []) : path.isAbsolute = false := by
  rw [← Bool.not_eq_true]
  intro habsolute
  rw [head?_segments_of_isAbsolute habsolute] at hhead
  exact hne (Option.some.inj hhead).symm

lemma components_of_head? {path : Path} {first : FileName}
    (hhead : path.segments.head? = some first) (hidle : isIdle first = false) :
    path.components = path.segments.filterMap component? := by
  obtain ⟨hne, hdot⟩ : first ≠ [] ∧ first ≠ [dot] := by simpa [isIdle] using hidle
  rw [components_eq_append, isAbsolute_of_head? hhead hne, hhead]
  simp [hdot]

lemma isAbsolute_slashed {c : Component} {rest : List Component}
    (hslash : ∀ d ∈ c :: rest, slash ∉ d.bytes) (hne : c.bytes ≠ []) :
    (slashed (c :: rest)).isAbsolute = false := by
  refine isAbsolute_of_head? ?_ hne
  rw [segments_slashed (List.cons_ne_nil c rest) hslash]
  rfl

lemma isAbsolute_slashed_inner {inner : List Component} (h : ∀ c ∈ inner, c.IsInner) :
    (slashed inner).isAbsolute = false := by
  cases inner with
  | nil => rfl
  | cons c inner =>
    exact isAbsolute_slashed (fun d hd => (h d hd).no_slash)
      (h c (List.mem_cons_self ..)).bytes_ne_nil

lemma segments_slash_cons (path : Path) :
    (Path.mk (slash :: path.bytes)).segments = [] :: path.segments := rfl

lemma components_slash_cons (path : Path) :
    (Path.mk (slash :: path.bytes)).components = .root :: path.segments.filterMap component? := by
  rw [components_eq_append, segments_slash_cons]
  rfl

/-- The root directory is written as a slash, with another one behind it if more follows. -/
lemma slashed_root {inner : List Component} (h : inner ≠ []) :
    slashed (.root :: inner) = ⟨slash :: slash :: (slashed inner).bytes⟩ := by
  rw [slashed, List.map_cons, List.intercalate_cons_of_ne_nil (by simpa using h)]
  rfl

lemma components_slashed_root (inner : List Component) :
    (slashed (.root :: inner)).components =
      .root :: (slashed inner).segments.filterMap component? := by
  by_cases h : inner = []
  · rw [h]
    rfl
  · rw [slashed_root h, components_slash_cons ⟨slash :: (slashed inner).bytes⟩,
      segments_slash_cons]
    rfl

/-- Components that are written with slashes between them are read again. -/
theorem components_slashed {components : List Component} (h : AreComponents components) :
    (slashed components).components = components := by
  cases h with
  | root h => rw [components_slashed_root, filterMap_segments_slashed h]
  | @here inner h =>
    have hslash : ∀ d ∈ Component.here :: inner, slash ∉ d.bytes :=
      List.forall_mem_cons.mpr ⟨by decide, fun d hd => (h d hd).no_slash⟩
    rw [components_eq_append, isAbsolute_slashed hslash (by decide),
      segments_slashed (List.cons_ne_nil _ _) hslash]
    exact congrArg (Component.here :: ·) (filterMap_bytes h)
  | inner h =>
    cases components with
    | nil => rfl
    | cons c inner =>
      have hhead : (slashed (c :: inner)).segments.head? = some c.bytes := by
        rw [segments_slashed (List.cons_ne_nil c inner) fun d hd => (h d hd).no_slash]
        rfl
      rw [components_of_head? hhead (h c (List.mem_cons_self ..)).not_isIdle,
        filterMap_segments_slashed h]

end PuzzleGate.Path
