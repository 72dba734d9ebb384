import PuzzleGate.Proofs.Path.Prefix

/-!
# Identifiers of documents

The identifier of a document says where it is below the root, and leads back to it when it is taken
relative to the root. It depends on what the segments of both paths mean and not on how they are
written, and tells apart the documents below one root.
-/

namespace PuzzleGate

namespace Path

lemma stripComponents?_eq_none {root path : List Component} (h : ¬ root <+: path) :
    stripComponents? root path = none := by
  induction root generalizing path with
  | nil => exact absurd List.nil_prefix h
  | cons c root ih =>
    cases path with
    | nil => rfl
    | cons d path =>
      rw [stripComponents?]
      split_ifs with hcd
      · exact ih fun hbelow => h (List.cons_prefix_cons.mpr ⟨hcd, hbelow⟩)
      · rfl

lemma AreComponents.inner_of_cons {c : Component} {rest : List Component}
    (h : AreComponents (c :: rest)) : ∀ d ∈ rest, d.IsInner := by
  cases h with
  | root h => exact h
  | here h => exact h
  | inner h => exact fun d hd => h d (List.mem_cons_of_mem c hd)

lemma segments_ne_nil (path : Path) : path.segments ≠ [] := by
  rw [segments, Text.splitOn_eq]
  exact List.splitOn_ne_nil slash _

lemma components_ne_nil {path : Path} (h : path.bytes ≠ []) : path.components ≠ [] := by
  obtain ⟨c, rest, hbytes⟩ := List.exists_cons_of_ne_nil h
  rw [components_eq_append]
  split_ifs with habsolute hdot
  · exact List.cons_ne_nil _ _
  · exact List.cons_ne_nil _ _
  · have hc : c ≠ slash := by
      rintro rfl
      rw [isAbsolute, hbytes] at habsolute
      exact habsolute rfl
    obtain ⟨piece, pieces, hsegments⟩ : ∃ piece pieces, path.segments = (c :: piece) :: pieces := by
      rw [segments, hbytes, Text.splitOn, if_neg hc]
      split <;> exact ⟨_, _, rfl⟩
    have hmeans : component? (c :: piece) ≠ none := by
      rw [Ne, component?_eq_none_iff, isIdle, Bool.or_eq_true, decide_eq_true_eq, decide_eq_true_eq]
      rintro (hnil | hsingle)
      · cases hnil
      · rw [hsegments, hsingle] at hdot
        exact hdot rfl
    obtain ⟨component, hcomponent⟩ := Option.ne_none_iff_exists'.mp hmeans
    rw [hsegments, List.filterMap_cons_some hcomponent]
    exact List.cons_ne_nil _ _

lemma join_of_empty {root : Path} (h : root.bytes = []) (path : Path) : root.join path = path := by
  rw [join]
  split_ifs with habsolute hopen
  · rfl
  · rw [h, List.nil_append]
  · exact absurd (by simp [h]) hopen

/-- The first path is written like the second but for empty segments and dots behind its first
segment. -/
inductive Respelled : Path → Path → Prop
  | refl (path : Path) : Respelled path path
  | inside (front back : List UInt8) {idle : List UInt8} (h : idle = [] ∨ idle = [dot]) :
      Respelled ⟨front ++ slash :: idle ++ slash :: back⟩ ⟨front ++ slash :: back⟩
  | atEnd {front : List UInt8} (hfront : front ≠ []) {idle : List UInt8}
      (h : idle = [] ∨ idle = [dot]) : Respelled ⟨front ++ slash :: idle⟩ ⟨front⟩
  | trans {a b c : Path} (hab : Respelled a b) (hbc : Respelled b c) : Respelled a c

lemma segments_append_slash (front back : List UInt8) :
    (Path.mk (front ++ slash :: back)).segments =
      (Path.mk front).segments ++ (Path.mk back).segments := by
  unfold segments
  rw [Text.splitOn_eq, Text.splitOn_eq, Text.splitOn_eq, List.splitOn_append_cons_self]

lemma head?_segments_append_slash (front back : List UInt8) :
    (Path.mk (front ++ slash :: back)).segments.head? = (Path.mk front).segments.head? := by
  rw [segments_append_slash, List.head?_append_of_ne_nil _ (segments_ne_nil _)]

lemma isAbsolute_append {front : List UInt8} (h : front ≠ []) (back : List UInt8) :
    (Path.mk (front ++ back)).isAbsolute = (Path.mk front).isAbsolute := by
  rw [isAbsolute, isAbsolute, List.head?_append_of_ne_nil _ h]

lemma components_congr {a b : Path} (habsolute : a.isAbsolute = b.isAbsolute)
    (hhead : a.segments.head? = b.segments.head?)
    (hmeaning : a.segments.filterMap component? = b.segments.filterMap component?) :
    a.components = b.components := by
  rw [components_eq_append, components_eq_append b, habsolute, hhead, hmeaning]

lemma filterMap_segments_of_idle {idle : List UInt8} (h : idle = [] ∨ idle = [dot]) :
    (Path.mk idle).segments.filterMap component? = [] := by
  rcases h with rfl | rfl <;> rfl

theorem Respelled.components_eq {a b : Path} (h : Respelled a b) : a.components = b.components := by
  induction h with
  | refl path => rfl
  | trans hab hbc ihab ihbc => rw [ihab, ihbc]
  | @inside front back idle h =>
    refine components_congr ?_ ?_ ?_
    · cases front with
      | nil => rfl
      | cons b front => rfl
    · rw [head?_segments_append_slash, head?_segments_append_slash, head?_segments_append_slash]
    · rw [segments_append_slash, segments_append_slash, segments_append_slash,
        List.filterMap_append, List.filterMap_append, List.filterMap_append,
        filterMap_segments_of_idle h, List.append_nil]
  | atEnd hfront h =>
    refine components_congr (isAbsolute_append hfront _) (head?_segments_append_slash _ _) ?_
    rw [segments_append_slash, List.filterMap_append, filterMap_segments_of_idle h, List.append_nil]

/-- The components of the path are UTF-8. -/
def IsText (path : Path) : Prop := ∀ c ∈ path.components, IsTextName c.bytes

instance (path : Path) : Decidable path.IsText :=
  inferInstanceAs (Decidable (∀ c ∈ path.components, IsTextName c.bytes))

lemma bytes_intercalate (texts : List String) :
    Text.Utf8.bytes ("/".intercalate texts) = [slash].intercalate (texts.map Text.Utf8.bytes) := by
  induction texts with
  | nil => rfl
  | cons text texts ih =>
    by_cases hrest : texts = []
    · simp [hrest]
    · have hmap : texts.map Text.Utf8.bytes ≠ [] := by simpa using hrest
      rw [String.intercalate_cons_of_ne_nil hrest, Text.bytes_append, Text.bytes_append, ih,
        List.map_cons, List.intercalate_cons_of_ne_nil hmap]
      rfl

/-- Components that are UTF-8 are what is read when they are shown with slashes between them. -/
lemma ofText_text_slashed {components : List Component}
    (h : ∀ c ∈ components, IsTextName c.bytes) :
    Path.ofText (slashed components).text = slashed components := by
  have hback : (components.map Component.text).map Text.Utf8.bytes =
      components.map Component.bytes := by
    rw [map_text]
    exact FileName.map_ofText_lossy (by simpa using h)
  rw [text_slashed, Path.ofText, bytes_intercalate, hback, slashed]

end Path

open PuzzleGate.Path

variable {root path : Path}

/-- The identifier is made of what is left of the path behind the root, read anew. -/
theorem documentId_eq_slashed (root path : Path) :
    documentId root path = (slashed ((path.behind? root).getD path).components).text := by
  rw [documentId, ← map_components_behind?, text_slashed]
  cases path.behind? root <;> rfl

lemma documentId_of_append {rest : List Component} (h : root.components ++ rest = path.components) :
    documentId root path = (slashed rest).text := by
  rw [documentId, ← h, stripComponents?_append, text_slashed]
  rfl

lemma documentId_elsewhere (h : ¬ root.components <+: path.components) :
    documentId root path = (slashed path.components).text := by
  rw [documentId, stripComponents?_eq_none h, text_slashed]
  rfl

lemma documentId_of_empty (h : root.bytes = []) :
    documentId root path = (slashed path.components).text := by
  obtain ⟨bytes⟩ := root
  obtain rfl : bytes = [] := h
  exact documentId_of_append rfl

lemma inner_of_append {rest : List Component} (hroot : root.bytes ≠ [])
    (h : root.components ++ rest = path.components) : ∀ c ∈ rest, c.IsInner := by
  obtain ⟨first, others, hcons⟩ := List.exists_cons_of_ne_nil (components_ne_nil hroot)
  have hpath := areComponents_components path
  rw [← h, hcons, List.cons_append] at hpath
  exact fun c hc => hpath.inner_of_cons c (List.mem_append_right _ hc)

/-- Below the root, the identifier leads back to the document. -/
theorem components_join_documentId (htext : path.IsText)
    (h : root.components <+: path.components) :
    (root.join (.ofText (documentId root path))).components = path.components := by
  by_cases hroot : root.bytes = []
  · rw [join_of_empty hroot, documentId_of_empty hroot, ofText_text_slashed htext]
    exact components_slashed (areComponents_components path)
  · obtain ⟨rest, hrest⟩ := h
    have hinner := inner_of_append hroot hrest
    have hrestText : ∀ c ∈ rest, IsTextName c.bytes := fun c hc =>
      htext c (hrest ▸ List.mem_append_right _ hc)
    have hjoin := components_join_of_relative hroot (isAbsolute_slashed_inner hinner)
    rw [filterMap_segments_slashed hinner, hrest] at hjoin
    rw [documentId_of_append hrest, ofText_text_slashed hrestText]
    exact hjoin

/-- Elsewhere, the identifier is a way to write the path itself. -/
theorem components_documentId (htext : path.IsText) (h : ¬ root.components <+: path.components) :
    (Path.ofText (documentId root path)).components = path.components := by
  rw [documentId_elsewhere h, ofText_text_slashed htext]
  exact components_slashed (areComponents_components path)

lemma documentId_congr {root' path' : Path} (hroot : root'.components = root.components)
    (hpath : path'.components = path.components) :
    documentId root' path' = documentId root path := by
  rw [documentId, documentId, hroot, hpath]

/-- The identifier of a document whose components are UTF-8 names it: below the root it leads back
to the document when it is taken relative to the root, and elsewhere it is the path of the document.
It does not depend on how the root and the path are written but on their components alone, and below
one root it is the same for two paths exactly when their components are. -/
theorem identifier_names_document (root path : Path) :
    documentId root path = (slashed ((path.behind? root).getD path).components).text ∧
    (path.IsText → root.components <+: path.components →
      (root.join (.ofText (documentId root path))).components = path.components) ∧
    (path.IsText → ¬ root.components <+: path.components →
      (Path.ofText (documentId root path)).components = path.components) ∧
    (∀ root' path' : Path, root'.components = root.components →
      path'.components = path.components → documentId root' path' = documentId root path) ∧
    (∀ root' path' : Path, Respelled root' root → Respelled path' path →
      documentId root' path' = documentId root path) ∧
    ∀ path' : Path, path.IsText → path'.IsText →
      root.components <+: path.components → root.components <+: path'.components →
      (documentId root path' = documentId root path ↔ path'.components = path.components) := by
  refine ⟨documentId_eq_slashed root path, components_join_documentId, components_documentId,
    fun root' path' => documentId_congr, fun root' path' hroot hpath => ?_,
    fun path' htext htext' hbelow hbelow' => ⟨fun hsame => ?_, documentId_congr rfl⟩⟩
  · exact documentId_congr hroot.components_eq hpath.components_eq
  · rw [← components_join_documentId htext' hbelow', hsame,
      components_join_documentId htext hbelow]

/-- A document below a root that is written with an idle segment, and one outside of it. -/
theorem identifier_names_document_repo :
    let root : Path := .ofText "/repo/./puzzles/"
    let inside : Path := .ofText "/repo/puzzles//eth/../4.mdx"
    let outside : Path := .ofText "/other/x.mdx"
    inside.IsText ∧ root.components <+: inside.components ∧
      (root.join (.ofText (documentId root inside))).components = inside.components ∧
    outside.IsText ∧ ¬ root.components <+: outside.components ∧
      (Path.ofText (documentId root outside)).components = outside.components ∧
    Respelled root (.ofText "/repo/puzzles") ∧
      documentId root inside = documentId (.ofText "/repo/puzzles") inside ∧
    documentId root inside = "eth/../4.mdx" := by
  intro root inside outside
  have hinside : root.components <+: inside.components := by decide
  have houtside : ¬ root.components <+: outside.components := by decide
  have htextInside : inside.IsText := by decide
  have htextOutside : outside.IsText := by decide
  have hend : Respelled root (.ofText "/repo/./puzzles") :=
    .atEnd (show Text.Utf8.bytes "/repo/./puzzles" ≠ [] by decide) (.inl rfl)
  have hdot : Respelled (.ofText "/repo/./puzzles") (.ofText "/repo/puzzles") :=
    .inside (Text.Utf8.bytes "/repo") (Text.Utf8.bytes "puzzles") (.inr rfl)
  have hroot := hend.trans hdot
  exact ⟨htextInside, hinside, (identifier_names_document root inside).2.1 htextInside hinside,
    htextOutside, houtside,
    (identifier_names_document root outside).2.2.1 htextOutside houtside, hroot,
    (identifier_names_document (.ofText "/repo/puzzles") inside).2.2.2.2.1 root inside hroot
      (.refl inside),
    by decide⟩

end PuzzleGate
