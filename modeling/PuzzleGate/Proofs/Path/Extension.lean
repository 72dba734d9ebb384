import Mathlib.Data.List.TakeWhile
import PuzzleGate.Proofs.Path.Basic

/-!
# File extensions

The extension of a file is what its name has behind the last dot, unless that dot is where the name
begins: a hidden file has no extension of its own for being hidden.
-/

namespace PuzzleGate.Path

/-- The name ends in a dot and these bytes, and there is more in front of that dot. -/
def HasExtension (name extension : FileName) : Prop :=
  ∃ stem, stem ≠ [] ∧ name = stem ++ dot :: extension ∧ dot ∉ extension

lemma extensionOf?_of_append {name : FileName} {stem extension : List UInt8}
    (hname : name = stem ++ dot :: extension) (hextension : dot ∉ extension) :
    extensionOf? name = if stem = [] then none else some extension := by
  have hbehind : (name.reverse.takeWhile (· ≠ dot)).reverse = extension := by
    have hnone : ∀ c ∈ extension.reverse, decide (c ≠ dot) = true := by
      intro c hc
      rw [decide_eq_true_eq]
      rintro rfl
      exact hextension (List.mem_reverse.mp hc)
    rw [hname, List.reverse_append, List.reverse_cons, List.append_assoc,
      List.takeWhile_append_of_pos hnone]
    simp
  have hlength : name.length = stem.length + 1 + extension.length := by
    rw [hname, List.length_append, List.length_cons]
    omega
  unfold extensionOf?
  simp only [hbehind, hlength, Nat.add_sub_cancel]
  cases stem with
  | nil => rfl
  | cons c stem => simp

lemma extensionOf?_of_not_mem {name : FileName} (h : dot ∉ name) :
    extensionOf? name = none := by
  have hall : name.reverse.takeWhile (· ≠ dot) = name.reverse := by
    refine List.takeWhile_eq_self_iff.mpr fun c hc => ?_
    rw [decide_eq_true_eq]
    rintro rfl
    exact h (List.mem_reverse.mp hc)
  unfold extensionOf?
  simp only [hall, List.reverse_reverse, Nat.sub_self]
  rfl

theorem extensionOf?_eq_some_iff {name extension : FileName} :
    extensionOf? name = some extension ↔ HasExtension name extension := by
  constructor
  · intro h
    by_cases hdot : dot ∈ name
    · -- the name is split at its last dot, which comes first when it is read backwards
      obtain ⟨behind, stem, hreverse, hbehind⟩ :=
        List.eq_append_cons_of_mem (List.mem_reverse.mpr hdot)
      have hname : name = stem.reverse ++ dot :: behind.reverse := by
        rw [← List.reverse_reverse name, hreverse, List.reverse_append, List.reverse_cons,
          List.append_assoc]
        rfl
      have hnodot : dot ∉ behind.reverse := fun hmem => hbehind (List.mem_reverse.mp hmem)
      rw [extensionOf?_of_append hname hnodot] at h
      split_ifs at h with hstem
      obtain rfl := Option.some.inj h
      exact ⟨stem.reverse, hstem, hname, hnodot⟩
    · rw [extensionOf?_of_not_mem hdot] at h
      cases h
  · rintro ⟨stem, hstem, hname, hextension⟩
    rw [extensionOf?_of_append hname hextension, if_neg hstem]

lemma extensionText?_eq_some_iff {path : Path} {extension : String} :
    path.extension?.bind Text.Utf8.text? = some extension ↔
      path.extension? = some (.ofText extension) := by
  simp only [Option.bind_eq_some_iff, Text.text?_eq_some_iff, FileName.ofText, exists_eq_right]

lemma extension?_descend {base : Path} {names : List FileName} {name : FileName}
    (hbase : base.bytes ≠ []) (hnames : ∀ n ∈ names, IsPlainName n)
    (hlast : names.getLast? = some name) :
    (base.descend names).extension? = extensionOf? name := by
  have hcomponent : (base.components ++ names.map Component.name).getLast? =
      some (.name name) := by
    rw [List.getLast?_append, List.getLast?_map, hlast]
    rfl
  rw [extension?, fileName?, components_descend hbase hnames, hcomponent]
  rfl

end PuzzleGate.Path
