import Mathlib.Data.List.Basic
import PuzzleGate.Proofs.Path.Basic

/-!
# The order of paths

Paths are compared component by component, and names by their bytes. What lies below one
directory is therefore in the order of the names that lead to it, and sorting leaves no choice.
-/

namespace PuzzleGate.Path

lemma Component.compare_name (a b : FileName) :
    Ord.compare (Component.name a) (Component.name b) = Ord.compare a b :=
  Ordering.then_eq

instance : Std.OrientedOrd Component where
  eq_swap {a b} := by
    cases a <;> cases b
    case name.name a b =>
      rw [Component.compare_name, Component.compare_name]
      exact Std.OrientedOrd.eq_swap
    all_goals rfl

instance : Std.TransOrd Component where
  isLE_trans {a b c} hab hbc := by
    cases a <;> cases b <;> cases c
    case name.name.name a b c =>
      rw [Component.compare_name] at hab hbc ⊢
      exact Std.TransOrd.isLE_trans hab hbc
    all_goals first
      | rfl
      | exact absurd hab Bool.false_ne_true
      | exact absurd hbc Bool.false_ne_true

instance : Std.LawfulEqOrd Component where
  compare_self {a} := by
    cases a with
    | name a =>
      rw [Component.compare_name]
      exact Std.compare_self
    | root => rfl
    | here => rfl
    | above => rfl
  eq_of_compare {a b} h := by
    cases a <;> cases b
    case name.name a b =>
      rw [Component.compare_name] at h
      rw [Std.LawfulEqOrd.eq_of_compare h]
    all_goals first | rfl | cases h

lemma compare_swap (a b : Path) : a.compare b = (b.compare a).swap := Std.OrientedOrd.eq_swap

lemma compare_append (front a b : List Component) :
    Ord.compare (front ++ a) (front ++ b) = Ord.compare a b := by
  induction front with
  | nil => rfl
  | cons c front ih => rw [List.cons_append, List.cons_append, List.compare_cons_cons,
      Std.compare_self, Ordering.eq_then, ih]

lemma compare_names (a b : List FileName) :
    Ord.compare (a.map Component.name) (b.map Component.name) = Ord.compare a b := by
  induction a generalizing b with
  | nil => cases b <;> rfl
  | cons s a ih =>
    cases b with
    | nil => rfl
    | cons t b =>
      rw [List.map_cons, List.map_cons, List.compare_cons_cons, List.compare_cons_cons,
        Component.compare_name, ih]

theorem compare_descend {base : Path} {names names' : List FileName} (hbase : base.bytes ≠ [])
    (hnames : ∀ name ∈ names, IsPlainName name) (hnames' : ∀ name ∈ names', IsPlainName name) :
    (base.descend names).compare (base.descend names') = Ord.compare names names' := by
  rw [compare, components_descend hbase hnames, components_descend hbase hnames', compare_append,
    compare_names]

/-- The paths in their order. -/
def sort (paths : List Path) : List Path := paths.mergeSort fun a b => (a.compare b).isLE

lemma sort_perm (paths : List Path) : (sort paths).Perm paths := List.mergeSort_perm _ _

lemma pairwise_sort (paths : List Path) :
    (sort paths).Pairwise fun a b => (a.compare b).isLE = true := by
  have htrans (a b c : Path) (hab : (a.compare b).isLE = true) (hbc : (b.compare c).isLE = true) :
      (a.compare c).isLE = true := Std.TransOrd.isLE_trans hab hbc
  have htotal (a b : Path) : ((a.compare b).isLE || (b.compare a).isLE) = true := by
    rw [compare_swap]
    cases b.compare a <;> rfl
  exact List.pairwise_mergeSort htrans htotal paths

/-- The paths are reached from the directory by names of entries. -/
def AreBelow (base : Path) (paths : List Path) : Prop :=
  ∀ path ∈ paths, ∃ names, (∀ name ∈ names, IsPlainName name) ∧ path = base.descend names

/-- Different paths stand one after the other, with no two of the same rank. -/
theorem AreBelow.pairwise_sort {base : Path} {paths : List Path} (h : base.AreBelow paths)
    (hbase : base.bytes ≠ []) (hnodup : paths.Nodup) :
    (sort paths).Pairwise fun a b => a.compare b = .lt := by
  have hperm := sort_perm paths
  refine ((Path.pairwise_sort paths).and (hperm.nodup_iff.mpr hnodup)).imp_of_mem ?_
  rintro a b ha hb ⟨hle, hne⟩
  obtain ⟨names, hnames, rfl⟩ := h a (hperm.mem_iff.mp ha)
  obtain ⟨names', hnames', rfl⟩ := h b (hperm.mem_iff.mp hb)
  rw [compare_descend hbase hnames hnames'] at hle ⊢
  cases hcompare : Ord.compare names names' with
  | lt => rfl
  | eq => exact absurd (congrArg base.descend (Std.LawfulEqOrd.eq_of_compare hcompare)) hne
  | gt =>
    rw [hcompare] at hle
    cases hle

/-- Sorting leaves no choice. -/
theorem AreBelow.sort_eq_of_perm {base : Path} {paths paths' : List Path} (h : base.AreBelow paths)
    (hbase : base.bytes ≠ []) (hnodup : paths.Nodup) (hperm : paths.Perm paths') :
    sort paths' = sort paths := by
  have h' : base.AreBelow paths' := fun path hpath => h path (hperm.mem_iff.mpr hpath)
  have hasymm (a b : Path) (hab : a.compare b = .lt) (hba : b.compare a = .lt) : a = b := by
    rw [compare_swap, hba] at hab
    cases hab
  exact List.Perm.eq_of_pairwise (fun a b _ _ => hasymm a b)
    (h'.pairwise_sort hbase (hperm.nodup_iff.mp hnodup)) (h.pairwise_sort hbase hnodup)
    ((sort_perm paths').trans (hperm.symm.trans (sort_perm paths).symm))

end PuzzleGate.Path
