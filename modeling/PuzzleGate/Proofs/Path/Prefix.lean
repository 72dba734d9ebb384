import PuzzleGate.Proofs.Path.Written

/-!
# The rest of a path and its components

What is left of a path behind a root is read as the components that follow those of the root.
-/

namespace PuzzleGate.Path

lemma filterMap_dropWhile_isIdle (segments : List FileName) :
    (segments.dropWhile isIdle).filterMap component? = segments.filterMap component? := by
  induction segments with
  | nil => rfl
  | cons segment segments ih =>
    rw [List.dropWhile_cons]
    split_ifs with hidle
    · rw [ih, List.filterMap_cons_none (component?_eq_none_iff.mpr hidle)]
    · rfl

lemma filterMap_trimSegments (segments : List FileName) :
    (trimSegments segments).filterMap component? = segments.filterMap component? := by
  rw [trimSegments, List.filterMap_reverse, filterMap_dropWhile_isIdle, List.filterMap_reverse,
    List.reverse_reverse]

lemma trimSegments_isPrefix (segments : List FileName) : trimSegments segments <+: segments := by
  rw [trimSegments, ← List.reverse_suffix, List.reverse_reverse]
  exact List.dropWhile_suffix isIdle

lemma components_ofSegments {segments : List FileName} (h : ∀ segment ∈ segments, slash ∉ segment) :
    (ofSegments segments).components = segments.filterMap component? := by
  have hmeaning : (trimSegments (segments.dropWhile isIdle)).filterMap component? =
      segments.filterMap component? := by
    rw [filterMap_trimSegments, filterMap_dropWhile_isIdle]
  have htrim := trimSegments_isPrefix (segments.dropWhile isIdle)
  have hslash : ∀ segment ∈ trimSegments (segments.dropWhile isIdle), slash ∉ segment := fun s hs =>
    h s ((List.dropWhile_sublist isIdle).subset (htrim.subset hs))
  rw [← hmeaning]
  cases htrimmed : trimSegments (segments.dropWhile isIdle) with
  | nil =>
    rw [ofSegments, htrimmed]
    rfl
  | cons first rest =>
    rw [htrimmed] at hslash htrim
    have hfirst : isIdle first = false := by
      obtain ⟨others, hothers⟩ := htrim
      rw [List.cons_append] at hothers
      have hhead := List.head?_dropWhile_not isIdle segments
      rw [← hothers] at hhead
      simpa using hhead
    have hsegments : (ofSegments segments).segments = first :: rest := by
      rw [Path.segments, Text.splitOn_eq, ofSegments, htrimmed]
      exact List.splitOn_intercalate slash hslash (List.cons_ne_nil first rest)
    have hhead : (ofSegments segments).segments.head? = some first := by
      rw [hsegments]
      rfl
    rw [components_of_head? hhead hfirst, hsegments]

lemma suffix_of_readComponent? {segments rest : List FileName} {c : Component}
    (h : readComponent? segments = some (c, rest)) : rest <:+ segments := by
  induction segments with
  | nil => cases h
  | cons segment segments ih =>
    rw [readComponent?] at h
    split at h
    · obtain ⟨-, rfl⟩ := Prod.mk.inj (Option.some.inj h)
      exact List.suffix_cons segment segments
    · exact (ih h).trans (List.suffix_cons segment segments)

lemma readComponent?_eq (segments : List FileName) :
    match readComponent? segments with
    | some (c, rest) => segments.filterMap component? = c :: rest.filterMap component?
    | none => segments.filterMap component? = [] := by
  induction segments with
  | nil => rfl
  | cons segment segments ih =>
    rw [readComponent?]
    cases hsegment : component? segment with
    | some c => exact List.filterMap_cons_some hsegment
    | none =>
      rw [List.filterMap_cons_none hsegment]
      exact ih

lemma suffix_of_segmentsBehind? {components : List Component} {segments rest : List FileName}
    (h : segmentsBehind? components segments = some rest) : rest <:+ segments := by
  induction components generalizing segments with
  | nil =>
    obtain rfl := Option.some.inj h
    exact List.suffix_rfl
  | cons c components ih =>
    rw [segmentsBehind?] at h
    split at h
    · rename_i d tail hread
      split_ifs at h
      exact (ih h).trans (suffix_of_readComponent? hread)
    · cases h

lemma map_segmentsBehind? (components : List Component) (segments : List FileName) :
    (segmentsBehind? components segments).map (List.filterMap component?) =
      stripComponents? components (segments.filterMap component?) := by
  induction components generalizing segments with
  | nil => rfl
  | cons c components ih =>
    have hread := readComponent?_eq segments
    rw [segmentsBehind?]
    cases hfirst : readComponent? segments with
    | none =>
      rw [hfirst] at hread
      rw [hread]
      rfl
    | some read =>
      obtain ⟨d, rest⟩ := read
      rw [hfirst] at hread
      rw [hread, stripComponents?]
      dsimp only
      split_ifs
      · exact ih rest
      · rfl

lemma map_ofSegments {components : List Component} {segments : List FileName}
    (h : ∀ segment ∈ segments, slash ∉ segment) :
    ((segmentsBehind? components segments).map ofSegments).map Path.components =
      stripComponents? components (segments.filterMap component?) := by
  rw [← map_segmentsBehind?, Option.map_map]
  refine Option.map_congr fun rest hrest => ?_
  have hsuffix := suffix_of_segmentsBehind? hrest
  exact components_ofSegments fun segment hsegment => h segment (hsuffix.subset hsegment)

theorem map_components_behind? (path root : Path) :
    (path.behind? root).map Path.components =
      stripComponents? root.components path.components := by
  have hslash : ∀ segment ∈ path.segments, slash ∉ segment := fun segment hsegment =>
    Text.not_mem_of_mem_splitOn hsegment
  rw [behind?]
  cases root.components with
  | nil => rfl
  | cons first rest =>
    dsimp only
    rw [components_eq_append path]
    by_cases habsolute : path.isAbsolute = true
    · obtain ⟨tail, hsegments⟩ := List.head?_eq_some_iff.mp (head?_segments_of_isAbsolute habsolute)
      rw [if_pos habsolute, if_pos habsolute, List.singleton_append, stripComponents?]
      split_ifs with hroot
      · rw [hsegments] at hslash ⊢
        exact map_ofSegments fun segment hsegment =>
          hslash segment (List.mem_cons_of_mem _ hsegment)
      · rfl
    · rw [if_neg habsolute, if_neg habsolute]
      split
      · rename_i segments hsegments
        rw [hsegments] at hslash ⊢
        rw [List.head?_cons, if_pos rfl, List.singleton_append, stripComponents?]
        split_ifs with hhere
        · exact map_ofSegments fun segment hsegment =>
            hslash segment (List.mem_cons_of_mem _ hsegment)
        · rfl
      · rename_i hdot
        have hhead : path.segments.head? ≠ some [dot] := by
          intro hhead
          obtain ⟨segments, hsegments⟩ := List.head?_eq_some_iff.mp hhead
          exact hdot segments hsegments
        rw [if_neg hhead, List.nil_append]
        exact map_ofSegments hslash

end PuzzleGate.Path
