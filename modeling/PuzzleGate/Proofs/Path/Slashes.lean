import PuzzleGate.Proofs.Path.Identifier

/-!
# Slashes in identifiers

The root directory is written as a slash, and another slash stands between it and what follows.
An identifier that begins with the root directory therefore has a doubled slash. That is so for
absolute paths outside of the root, and for no other path unless the root is empty.
-/

namespace PuzzleGate

/-- The text has nothing between two of its slashes. -/
def HasDoubledSlash (text : String) : Prop := ['/', '/'] <:+: text.toList

instance (text : String) : Decidable (HasDoubledSlash text) :=
  inferInstanceAs (Decidable (_ <:+: _))

namespace Path

/-- The path with the same components that is written without idle segments. -/
def normalized (path : Path) : Path :=
  match path.components with
  | .root :: inner => ⟨slash :: (slashed inner).bytes⟩
  | components => slashed components

lemma isAbsolute_iff_head? (path : Path) :
    path.isAbsolute = true ↔ path.components.head? = some .root := by
  rw [components_eq_append]
  split_ifs with habsolute hdot
  · exact ⟨fun _ => rfl, fun _ => habsolute⟩
  · exact ⟨fun h => absurd h habsolute, fun h => by cases h⟩
  · refine ⟨fun h => absurd h habsolute, fun h => ?_⟩
    cases isInner_of_mem_segments (List.mem_of_mem_head? h)

lemma exists_components_of_isAbsolute {path : Path} (h : path.isAbsolute = true) :
    ∃ inner, path.components = .root :: inner ∧ ∀ c ∈ inner, c.IsInner := by
  obtain ⟨inner, hinner⟩ := List.head?_eq_some_iff.mp (path.isAbsolute_iff_head?.mp h)
  have hcomponents := areComponents_components path
  rw [hinner] at hcomponents
  exact ⟨inner, hinner, hcomponents.inner_of_cons⟩

lemma normalized_of_root {path : Path} {inner : List Component}
    (h : path.components = .root :: inner) :
    path.normalized = ⟨slash :: (slashed inner).bytes⟩ := by
  rw [normalized, h]

lemma normalized_of_relative {path : Path} (h : path.isAbsolute = false) :
    path.normalized = slashed path.components := by
  rw [normalized]
  split
  · rename_i inner hroot
    rw [← Bool.not_eq_true, isAbsolute_iff_head?, hroot] at h
    exact absurd rfl h
  · rfl

theorem components_normalized (path : Path) : path.normalized.components = path.components := by
  cases habsolute : path.isAbsolute with
  | true =>
    obtain ⟨inner, hcomponents, hinner⟩ := exists_components_of_isAbsolute habsolute
    rw [normalized_of_root hcomponents, components_slash_cons, filterMap_segments_slashed hinner,
      hcomponents]
  | false =>
    rw [normalized_of_relative habsolute]
    exact components_slashed (areComponents_components path)

lemma splitOn_text_slashed {components : List Component} (hne : components ≠ [])
    (h : ∀ c ∈ components, slash ∉ c.bytes) :
    (slashed components).text.toList.splitOn '/' = components.map fun c => c.text.toList := by
  rw [text_slashed, map_text, Text.Utf8.splitOn_intercalate_lossy (by simpa using hne)
    (by simpa using h), List.map_map, List.map_map]
  rfl

lemma nil_not_mem_splitOn_text {components : List Component} (hne : components ≠ [])
    (hslash : ∀ c ∈ components, slash ∉ c.bytes) (hbytes : ∀ c ∈ components, c.bytes ≠ []) :
    [] ∉ (slashed components).text.toList.splitOn '/' := by
  rw [splitOn_text_slashed hne hslash]
  intro hnil
  obtain ⟨c, hc, hempty⟩ := List.mem_map.mp hnil
  exact Text.Utf8.lossy_ne_empty (hbytes c hc) (String.toList_inj.mp hempty)

lemma nil_mem_splitOn {text : String} (h : HasDoubledSlash text) :
    [] ∈ text.toList.splitOn '/' := by
  obtain ⟨front, back, hchars⟩ := h
  have hbetween : text.toList.splitOn '/' = front.splitOn '/' ++ [] :: back.splitOn '/' := by
    rw [← hchars, List.append_assoc]
    exact List.splitOn_append_cons_self front _
  rw [hbetween]
  exact List.mem_append_right _ (List.mem_cons_self ..)

lemma not_hasDoubledSlash_slashed {components : List Component}
    (hslash : ∀ c ∈ components, slash ∉ c.bytes) (hbytes : ∀ c ∈ components, c.bytes ≠ []) :
    ¬ HasDoubledSlash (slashed components).text := by
  cases components with
  | nil => decide
  | cons c components =>
    intro hdoubled
    exact nil_not_mem_splitOn_text (List.cons_ne_nil c components) hslash hbytes
      (nil_mem_splitOn hdoubled)

lemma not_hasDoubledSlash_slashed_inner {inner : List Component} (h : ∀ c ∈ inner, c.IsInner) :
    ¬ HasDoubledSlash (slashed inner).text :=
  not_hasDoubledSlash_slashed (fun c hc => (h c hc).no_slash) fun c hc => (h c hc).bytes_ne_nil

lemma text_slash_cons (bytes : List UInt8) :
    (Path.mk (slash :: bytes)).text = "/" ++ (Path.mk bytes).text := by
  rw [← String.toList_inj, String.toList_append]
  simp only [text, Text.Utf8.lossy, String.toList_ofList]
  exact Text.Utf8.lossyFrom_append_slash (a := []) (Nat.le_refl 0) bytes

/-- Behind the root directory the slash is doubled, and nowhere else. -/
theorem hasDoubledSlash_slashed_iff {components : List Component} (h : AreComponents components) :
    HasDoubledSlash (slashed components).text ↔
      components.head? = some .root ∧ components ≠ [.root] := by
  cases h with
  | @root inner h =>
    cases inner with
    | nil => decide
    | cons c inner =>
      refine ⟨fun _ => ⟨rfl, by simp⟩, fun _ => ?_⟩
      rw [HasDoubledSlash, slashed_root (List.cons_ne_nil c inner), text_slash_cons,
        text_slash_cons]
      exact ⟨[], (slashed (c :: inner)).text.toList, by simp⟩
  | @here inner h =>
    have hclean : ¬ HasDoubledSlash (slashed (.here :: inner)).text := not_hasDoubledSlash_slashed
      (List.forall_mem_cons.mpr ⟨by decide, fun c hc => (h c hc).no_slash⟩)
      (List.forall_mem_cons.mpr ⟨by decide, fun c hc => (h c hc).bytes_ne_nil⟩)
    exact ⟨fun hdoubled => absurd hdoubled hclean, fun hroot => by cases hroot.1⟩
  | inner h =>
    refine ⟨fun hdoubled => absurd hdoubled (not_hasDoubledSlash_slashed_inner h), fun hroot => ?_⟩
    cases h _ (List.mem_of_mem_head? hroot.1)

lemma hasDoubledSlash_slashed_components_iff (path : Path) :
    HasDoubledSlash (slashed path.components).text ↔
      path.isAbsolute = true ∧ path.components ≠ [.root] := by
  rw [hasDoubledSlash_slashed_iff (areComponents_components path), isAbsolute_iff_head?]

lemma not_hasDoubledSlash_normalized (path : Path) : ¬ HasDoubledSlash path.normalized.text := by
  cases habsolute : path.isAbsolute with
  | true =>
    obtain ⟨inner, hcomponents, hinner⟩ := exists_components_of_isAbsolute habsolute
    have hchars : ("/" ++ (slashed inner).text).toList = '/' :: (slashed inner).text.toList := by
      simp
    rw [normalized_of_root hcomponents, text_slash_cons, HasDoubledSlash, hchars,
      List.infix_cons_iff]
    rintro (⟨rest, hrest⟩ | hdoubled)
    · have hfront : (slashed inner).text.toList = [] ++ '/' :: rest := (List.cons.inj hrest).2.symm
      have hne : inner ≠ [] := by
        rintro rfl
        cases hfront
      refine nil_not_mem_splitOn_text hne (fun c hc => (hinner c hc).no_slash)
        (fun c hc => (hinner c hc).bytes_ne_nil) ?_
      rw [hfront, List.splitOn_append_cons_self, List.splitOn_nil]
      exact List.mem_cons_self ..
    · exact not_hasDoubledSlash_slashed_inner hinner hdoubled
  | false =>
    rw [normalized_of_relative habsolute, hasDoubledSlash_slashed_components_iff, habsolute]
    rintro ⟨⟨⟩, -⟩

/-- Written with slashes between them, the components of a path give the normalized path, with a
slash too many in front if it leads from the root directory to somewhere. -/
lemma text_slashed_components (path : Path) : (slashed path.components).text =
    if path.isAbsolute = true ∧ path.components ≠ [.root] then "/" ++ path.normalized.text
    else path.normalized.text := by
  split_ifs with h
  · obtain ⟨inner, hcomponents, -⟩ := exists_components_of_isAbsolute h.1
    have hne : inner ≠ [] := by
      rintro rfl
      exact h.2 hcomponents
    rw [normalized_of_root hcomponents, hcomponents, slashed_root hne, text_slash_cons]
  · cases habsolute : path.isAbsolute with
    | true =>
      have hroot : path.components = [.root] := by simpa [habsolute] using h
      rw [normalized_of_root hroot, hroot]
      rfl
    | false => rw [normalized_of_relative habsolute]

end Path

open PuzzleGate.Path

variable {root path : Path}

lemma hasDoubledSlash_documentId_below (hroot : root.bytes ≠ [])
    (h : root.components <+: path.components) : ¬ HasDoubledSlash (documentId root path) := by
  obtain ⟨rest, hrest⟩ := h
  rw [documentId_of_append hrest]
  exact not_hasDoubledSlash_slashed_inner (inner_of_append hroot hrest)

theorem hasDoubledSlash_documentId_iff (root path : Path) :
    HasDoubledSlash (documentId root path) ↔
      path.isAbsolute = true ∧ path.components ≠ [.root] ∧
        (root.bytes = [] ∨ ¬ root.components <+: path.components) := by
  rw [← and_assoc]
  by_cases hroot : root.bytes = []
  · rw [documentId_of_empty hroot, hasDoubledSlash_slashed_components_iff]
    exact ⟨fun h => ⟨h, .inl hroot⟩, And.left⟩
  · by_cases hbelow : root.components <+: path.components
    · refine ⟨fun h => absurd h (hasDoubledSlash_documentId_below hroot hbelow), fun h => ?_⟩
      exact absurd h.2 (by simp [hroot, hbelow])
    · rw [documentId_elsewhere hbelow, hasDoubledSlash_slashed_components_iff]
      exact ⟨fun h => ⟨h, .inr hbelow⟩, And.left⟩

/-- An identifier has a doubled slash exactly when the path is absolute, leads below the root
directory and is outside of the root, or the root is empty. Outside of the root the identifier is
the normalized path but for that slash, and the normalized path means what the path means and never
has a doubled slash itself. -/
theorem slashes_of_identifier (root path : Path) :
    (HasDoubledSlash (documentId root path) ↔
      path.isAbsolute = true ∧ path.components ≠ [.root] ∧
        (root.bytes = [] ∨ ¬ root.components <+: path.components)) ∧
    (¬ root.components <+: path.components →
      documentId root path =
        if path.isAbsolute = true ∧ path.components ≠ [.root] then "/" ++ path.normalized.text
        else path.normalized.text) ∧
    path.normalized.components = path.components ∧ ¬ HasDoubledSlash path.normalized.text := by
  refine ⟨hasDoubledSlash_documentId_iff root path, fun hbelow => ?_, components_normalized path,
    not_hasDoubledSlash_normalized path⟩
  rw [documentId_elsewhere hbelow, text_slashed_components]

/-- A relative path outside of the root is its own identifier once it is normalized. -/
theorem slashes_of_identifier_relative :
    let root : Path := .ofText "/repo/puzzles"
    let path : Path := .ofText "other//./x.mdx"
    ¬ root.components <+: path.components ∧ documentId root path = path.normalized.text ∧
      path.normalized.text = "other/x.mdx" := by
  intro root path
  have houtside : ¬ root.components <+: path.components := by decide
  exact ⟨houtside, ((slashes_of_identifier root path).2.1 houtside).trans (if_neg (by decide)),
    by decide⟩

/-- An absolute path outside of the root gets an identifier with a doubled slash, which is not the
normalized path. -/
theorem slashes_of_identifier_absolute :
    let root : Path := .ofText "/repo/puzzles"
    let path : Path := .ofText "/other/x.mdx"
    documentId root path = "//other/x.mdx" ∧ HasDoubledSlash (documentId root path) ∧
      ¬ root.components <+: path.components ∧ path.normalized.text = "/other/x.mdx" ∧
      documentId root path ≠ path.normalized.text := by
  decide

end PuzzleGate
