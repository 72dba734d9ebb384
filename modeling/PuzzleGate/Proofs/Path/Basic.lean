import Mathlib.Data.List.Basic
import PuzzleGate.Path.Basic
import PuzzleGate.Proofs.Text.Lossy

/-!
# Paths of entries

An entry of a directory has the path of the directory with its own name behind it. Its components
are those of the directory and the name, so entries with different names on the way from a root
have different identifiers below it.
-/

namespace PuzzleGate

/-- The name is one that an entry of a directory may have. -/
structure IsPlainName (name : FileName) : Prop where
  ne_empty : name ≠ []
  ne_dot : name ≠ [Path.dot]
  ne_dots : name ≠ [Path.dot, Path.dot]
  no_slash : Path.slash ∉ name

/-- The name is the UTF-8 form of a text. -/
def IsTextName (name : FileName) : Prop := ∃ text, name = .ofText text

lemma isTextName_iff {name : FileName} :
    IsTextName name ↔ (Text.Utf8.text? name).isSome = true := by
  simp only [IsTextName, FileName.ofText, Option.isSome_iff_exists, Text.text?_eq_some_iff]

instance (name : FileName) : Decidable (IsTextName name) := decidable_of_iff _ isTextName_iff.symm

@[simp] lemma FileName.lossy_ofText (text : String) :
    Text.Utf8.lossy (FileName.ofText text) = text := Text.Utf8.lossy_bytes text

lemma FileName.map_ofText_lossy {names : List FileName} (h : ∀ name ∈ names, IsTextName name) :
    (names.map Text.Utf8.lossy).map FileName.ofText = names := by
  rw [List.map_map]
  refine (List.map_congr_left fun name hname => ?_).trans (List.map_id names)
  obtain ⟨text, rfl⟩ := h name hname
  rw [Function.comp_apply, id_eq, FileName.lossy_ofText]

namespace Path

lemma not_isAbsolute_of_plain {name : FileName} (h : IsPlainName name) :
    isAbsolute ⟨name⟩ = false := by
  have hhead : name.head? ≠ some slash := by
    intro hhead
    exact h.no_slash (List.mem_of_mem_head? hhead)
  simp [isAbsolute, hhead]

/-- The path ends with a slash. -/
def IsOpen (base : Path) : Prop := base.bytes.getLast? = some slash

instance (base : Path) : Decidable base.IsOpen := inferInstanceAs (Decidable (_ = _))

/-- What is written between a path and another that is taken relative to it. -/
def separator (base : Path) : List UInt8 := if base.bytes = [] ∨ base.IsOpen then [] else [slash]

lemma bytes_join (base : Path) {path : Path} (hpath : path.isAbsolute = false) :
    (base.join path).bytes = base.bytes ++ base.separator ++ path.bytes := by
  unfold join separator
  rw [hpath]
  by_cases hbase : base.bytes = []
  · simp [hbase]
  · by_cases hopen : base.IsOpen
    · have hlast : base.bytes.getLast? = some slash := hopen
      simp [hlast, hopen]
    · have hlast : base.bytes.getLast? ≠ some slash := hopen
      simp [hbase, hlast, hopen]

lemma segments_name {name : FileName} (h : IsPlainName name) : segments ⟨name⟩ = [name] := by
  rw [segments, Text.splitOn_eq]
  exact List.splitOn_eq_singleton h.no_slash

lemma segments_join {base path : Path} (hbase : base.bytes ≠ []) (hpath : path.isAbsolute = false) :
    ∃ front, front ≠ [] ∧ (base.segments = front ∨ base.segments = front ++ [[]]) ∧
      (base.join path).segments = front ++ path.segments := by
  unfold segments
  rw [Text.splitOn_eq, Text.splitOn_eq, Text.splitOn_eq, bytes_join _ hpath, separator]
  by_cases hopen : base.IsOpen
  · obtain ⟨front, hfront⟩ := List.getLast?_eq_some_iff.mp hopen
    refine ⟨front.splitOn slash, List.splitOn_ne_nil _ _, .inr ?_, ?_⟩
    · rw [hfront, List.splitOn_append_cons_self, List.splitOn_nil]
    · rw [if_pos (.inr hopen), hfront, List.append_nil, List.append_assoc, List.singleton_append,
        List.splitOn_append_cons_self]
  · refine ⟨base.bytes.splitOn slash, List.splitOn_ne_nil _ _, .inl rfl, ?_⟩
    rw [if_neg (by simp [hbase, hopen]), List.append_assoc, List.singleton_append,
      List.splitOn_append_cons_self]

lemma isAbsolute_join {base path : Path} (hbase : base.bytes ≠ [])
    (hpath : path.isAbsolute = false) : (base.join path).isAbsolute = base.isAbsolute := by
  obtain ⟨c, rest, hcons⟩ := List.exists_cons_of_ne_nil hbase
  rw [isAbsolute, isAbsolute, bytes_join _ hpath, hcons]
  rfl

lemma bytes_join_ne (base : Path) {path : Path} (hpath : path.bytes ≠ []) :
    (base.join path).bytes ≠ [] := by
  cases habsolute : path.isAbsolute with
  | true =>
    rw [join, habsolute]
    exact hpath
  | false =>
    intro hempty
    have hbytes := bytes_join base habsolute
    rw [hempty] at hbytes
    exact hpath (List.append_eq_nil_iff.mp hbytes.symm).2

lemma components_eq_append (path : Path) : path.components =
    (if path.isAbsolute then [.root] else if path.segments.head? = some [dot] then [.here] else [])
      ++ path.segments.filterMap component? := by
  unfold components
  split
  · rfl
  · split
    · rename_i rest hsegments
      simp [hsegments, component?]
    · rename_i hdot
      have hhead : path.segments.head? ≠ some [dot] := by
        intro hhead
        obtain ⟨rest, hsegments⟩ := List.head?_eq_some_iff.mp hhead
        exact hdot rest hsegments
      simp [hhead]

lemma component?_plain {name : FileName} (h : IsPlainName name) :
    component? name = some (.name name) := by
  simp [component?, h.ne_empty, h.ne_dot, h.ne_dots]

/-- A path that is taken relative to another adds what its segments mean. -/
theorem components_join_of_relative {base path : Path} (hbase : base.bytes ≠ [])
    (hpath : path.isAbsolute = false) :
    (base.join path).components = base.components ++ path.segments.filterMap component? := by
  obtain ⟨front, hne, hfront, hjoin⟩ := segments_join hbase hpath
  obtain ⟨first, rest, rfl⟩ := List.exists_cons_of_ne_nil hne
  have hidle : base.segments.head? = some first ∧
      base.segments.filterMap component? = (first :: rest).filterMap component? := by
    rcases hfront with hfront | hfront
    · rw [hfront]
      exact ⟨rfl, rfl⟩
    · rw [hfront, List.filterMap_append]
      exact ⟨rfl, List.append_nil _⟩
  have hhead : (base.join path).segments.head? = base.segments.head? := by
    rw [hjoin, hidle.1]
    rfl
  have hcomponents : (base.join path).segments.filterMap component? =
      base.segments.filterMap component? ++ path.segments.filterMap component? := by
    rw [hjoin, hidle.2, List.filterMap_append]
  rw [components_eq_append, components_eq_append base, isAbsolute_join hbase hpath, hhead,
    hcomponents, List.append_assoc]

theorem components_join {base : Path} {name : FileName} (hbase : base.bytes ≠ [])
    (hname : IsPlainName name) :
    (base.join ⟨name⟩).components = base.components ++ [.name name] := by
  rw [components_join_of_relative hbase (not_isAbsolute_of_plain hname), segments_name hname]
  simp [component?_plain hname]

lemma separator_join {directory base : Path} (hbase : base.bytes ≠ [])
    (hrelative : base.isAbsolute = false) : (directory.join base).separator = base.separator := by
  have hlast : (directory.join base).bytes.getLast? = base.bytes.getLast? := by
    rw [bytes_join directory hrelative, List.getLast?_append_of_ne_nil _ hbase]
  simp [separator, IsOpen, hlast, hbase, bytes_join_ne directory hbase]

/-- It does not matter from where the path of an entry is taken relative to a directory. -/
theorem join_join {directory base : Path} {name : FileName} (hbase : base.bytes ≠ [])
    (hname : IsPlainName name) :
    directory.join (base.join ⟨name⟩) = (directory.join base).join ⟨name⟩ := by
  have hrelative := not_isAbsolute_of_plain hname
  have habsolute := isAbsolute_join hbase hrelative
  cases hbaseabs : base.isAbsolute with
  | true =>
    rw [hbaseabs] at habsolute
    rw [join.eq_def directory, habsolute, join.eq_def directory base, hbaseabs]
    rfl
  | false =>
    rw [hbaseabs] at habsolute
    have hbytes : (directory.join (base.join ⟨name⟩)).bytes =
        ((directory.join base).join ⟨name⟩).bytes := by
      rw [bytes_join _ habsolute, bytes_join _ hrelative, bytes_join _ hrelative,
        bytes_join _ hbaseabs, separator_join hbase hbaseabs]
      simp only [List.append_assoc]
    exact congrArg Path.mk hbytes

/-- The path of what is reached from a directory by these names. -/
def descend (base : Path) (names : List FileName) : Path :=
  names.foldl (fun path name => path.join ⟨name⟩) base

@[simp] lemma descend_nil (base : Path) : base.descend [] = base := rfl

@[simp] lemma descend_cons (base : Path) (name : FileName) (names : List FileName) :
    base.descend (name :: names) = (base.join ⟨name⟩).descend names := rfl

lemma size_le_join (base : Path) {path : Path} (hpath : path.isAbsolute = false) :
    base.bytes.length ≤ (base.join path).bytes.length := by
  rw [bytes_join base hpath, List.append_assoc, List.length_append]
  exact Nat.le_add_right _ _

lemma size_le_descend (base : Path) {names : List FileName}
    (hnames : ∀ name ∈ names, IsPlainName name) :
    base.bytes.length ≤ (base.descend names).bytes.length := by
  induction names generalizing base with
  | nil => exact Nat.le_refl _
  | cons name names ih =>
    have hname := hnames name (List.mem_cons_self ..)
    have hjoin := size_le_join base (not_isAbsolute_of_plain hname)
    have hrest := ih (base.join ⟨name⟩) fun n hn => hnames n (List.mem_cons_of_mem _ hn)
    rw [descend_cons]
    omega

lemma components_descend {base : Path} {names : List FileName} (hbase : base.bytes ≠ [])
    (hnames : ∀ name ∈ names, IsPlainName name) :
    (base.descend names).components = base.components ++ names.map .name := by
  induction names generalizing base with
  | nil => simp
  | cons name names ih =>
    have hname := hnames name (List.mem_cons_self ..)
    have hrest := ih (bytes_join_ne base hname.ne_empty) fun n hn =>
      hnames n (List.mem_cons_of_mem _ hn)
    rw [descend_cons, hrest, components_join hbase hname]
    simp

lemma descend_inj {base : Path} {names names' : List FileName} (hbase : base.bytes ≠ [])
    (hnames : ∀ name ∈ names, IsPlainName name) (hnames' : ∀ name ∈ names', IsPlainName name)
    (h : base.descend names = base.descend names') : names = names' := by
  have hcomponents := components_descend hbase hnames
  rw [h, components_descend hbase hnames', List.append_cancel_left_eq] at hcomponents
  exact (List.map_injective_iff.mpr (fun a b hab => Component.name.inj hab) hcomponents).symm

lemma stripComponents?_append (root rest : List Component) :
    stripComponents? root (root ++ rest) = some rest := by
  induction root with
  | nil => rfl
  | cons c root ih =>
    rw [List.cons_append, stripComponents?, if_pos rfl, ih]

end Path

lemma documentId_descend {root : Path} {names : List FileName} (hroot : root.bytes ≠ [])
    (hnames : ∀ name ∈ names, IsPlainName name) :
    documentId root (root.descend names) = "/".intercalate (names.map Text.Utf8.lossy) := by
  have htexts : (names.map Path.Component.name).map Path.Component.text =
      names.map Text.Utf8.lossy := by
    rw [List.map_map]
    rfl
  rw [documentId, Path.components_descend hroot hnames, Path.stripComponents?_append,
    Option.getD_some, htexts]

lemma map_lossy_inj {names names' : List FileName} (hnames : ∀ name ∈ names, IsTextName name)
    (hnames' : ∀ name ∈ names', IsTextName name)
    (h : names.map Text.Utf8.lossy = names'.map Text.Utf8.lossy) : names = names' := by
  rw [← FileName.map_ofText_lossy hnames, h, FileName.map_ofText_lossy hnames']

lemma intercalate_slash_inj {names names' : List FileName}
    (hnames : ∀ name ∈ names, IsPlainName name) (hnames' : ∀ name ∈ names', IsPlainName name)
    (hne : names ≠ []) (hne' : names' ≠ [])
    (h : "/".intercalate (names.map Text.Utf8.lossy) =
      "/".intercalate (names'.map Text.Utf8.lossy)) :
    names.map Text.Utf8.lossy = names'.map Text.Utf8.lossy := by
  have hsegments := Text.Utf8.splitOn_intercalate_lossy hne fun name hname =>
    (hnames name hname).no_slash
  have hsegments' := Text.Utf8.splitOn_intercalate_lossy hne' fun name hname =>
    (hnames' name hname).no_slash
  rw [h, hsegments'] at hsegments
  exact (List.map_injective_iff.mpr (fun a b hab => String.toList_inj.mp hab) hsegments).symm

/-- Below a root, different entries whose names are texts have different identifiers. -/
theorem documentId_inj {root : Path} {names names' : List FileName} (hroot : root.bytes ≠ [])
    (hnames : ∀ name ∈ names, IsPlainName name) (hnames' : ∀ name ∈ names', IsPlainName name)
    (htexts : ∀ name ∈ names, IsTextName name) (htexts' : ∀ name ∈ names', IsTextName name)
    (hne : names ≠ []) (hne' : names' ≠ [])
    (h : documentId root (root.descend names) = documentId root (root.descend names')) :
    names = names' := by
  rw [documentId_descend hroot hnames, documentId_descend hroot hnames'] at h
  exact map_lossy_inj htexts htexts' (intercalate_slash_inj hnames hnames' hne hne' h)

end PuzzleGate
