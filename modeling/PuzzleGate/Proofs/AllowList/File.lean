import PuzzleGate.AllowList.File
import PuzzleGate.Proofs.AllowList
import PuzzleGate.Proofs.Files.Tree
import PuzzleGate.Proofs.Json.Reading
import PuzzleGate.Proofs.Path.Extension
import PuzzleGate.Proofs.Report.Json

/-!
# What an allow-list file gives

The names of a file are read by its format and then made into a list, which must not be empty. In
JSON they stand in an array of strings or in such an array under `elements`, whatever else there is
in the text.
-/

namespace PuzzleGate.AllowList

open Files Json Reading

variable {disk : Disk} {path : Path} {text : String} {allowed : AllowList} {names : List String}

lemma ofText_eq_ok : ofText path text = .ok allowed ↔
    ∃ names, namesOfText path text = .ok names ∧ ofNames names = allowed ∧ allowed.names ≠ [] := by
  rw [ofText]
  simp only [bind_eq_ok]
  refine exists_congr fun names => and_congr_right fun _ => ?_
  split
  · rename_i hempty
    have hnil := List.isEmpty_iff.mp hempty
    simp only [reduceCtorEq, false_iff, not_and, not_not]
    rintro rfl
    exact hnil
  · rename_i hsome
    have hne : (ofNames names).names ≠ [] := fun hnil => hsome (List.isEmpty_iff.mpr hnil)
    rw [Except.ok.injEq]
    constructor
    · rintro rfl
      exact ⟨rfl, hne⟩
    · exact And.left

theorem load_eq_ok : load disk path = .ok allowed ↔
    ∃ text names, disk.readBytes path = .ok (Text.Utf8.encode text) ∧
      namesOfText path text = .ok names ∧ ofNames names = allowed ∧ allowed.names ≠ [] := by
  simp only [← Disk.readText_eq_ok_iff, ← ofText_eq_ok, exists_and_left]
  rw [load]
  split
  · rename_i fault hfault
    simp [hfault]
  · rename_i text htext
    simp [htext]

lemma load_eq_ite (hread : disk.readBytes path = .ok (Text.Utf8.encode text))
    (hnames : namesOfText path text = .ok names) : load disk path =
      if (ofNames names).names = [] then .error (.empty path) else .ok (ofNames names) := by
  rw [load, Disk.readText_eq_ok_iff.mpr hread]
  simp only [ofText, hnames, bind, Except.bind, isEmpty, List.isEmpty_iff]

lemma namesOfText_json (h : path.extension? = some (.ofText "json"))
    (hdecode : decode readTree text = .ok names) : namesOfText path text = .ok names := by
  have hformat : ListFormat.ofPath path = .json := by
    rw [ListFormat.ofPath, Path.extensionText?_eq_some_iff.mpr h]
    rfl
  unfold namesOfText
  rw [hformat]
  simp only [hdecode]
  rfl

lemma namesOfText_lines
    (h : ∀ extension ∈ ["json", "yaml", "yml"], path.extension? ≠ some (.ofText extension))
    (text : String) : namesOfText path text = .ok (namesOfLines text) := by
  have hformat : ListFormat.ofPath path = .lines := by
    unfold ListFormat.ofPath
    split
    · rename_i hjson
      exact absurd (Path.extensionText?_eq_some_iff.mp hjson) (h "json" (by decide))
    · rename_i hyaml
      exact absurd (Path.extensionText?_eq_some_iff.mp hyaml) (h "yaml" (by decide))
    · rename_i hyml
      exact absurd (Path.extensionText?_eq_some_iff.mp hyml) (h "yml" (by decide))
    · rfl
  unfold namesOfText
  rw [hformat]

lemma stringsOfItems?_eq_some {items : List Tree}
    (h : List.Forall₂ Tree.StandsFor items (names.map .string)) :
    stringsOfItems? items = some names := by
  induction names generalizing items with
  | nil =>
    obtain rfl := List.forall₂_nil_right_iff.mp h
    rfl
  | cons name names ih =>
    obtain ⟨item, rest, hitem, hrest, rfl⟩ := List.forall₂_cons_right_iff.mp h
    have hnames := ih hrest
    rw [stringsOfItems?] at hnames ⊢
    rw [List.mapM_cons, hnames]
    cases hitem.view
    rfl

lemma exists_items {tree : Tree} (h : tree.StandsFor (stringArray names)) :
    ∃ items, tree = .array items true ∧ stringsOfItems? items = some names := by
  cases h.view with
  | array hitems => exact ⟨_, rfl, stringsOfItems?_eq_some hitems⟩

lemma namesOfTree?_array {tree : Tree} (h : tree.StandsFor (stringArray names)) :
    namesOfTree? tree = some names := by
  obtain ⟨items, rfl, hitems⟩ := exists_items h
  exact hitems

lemma namesOfTree?_object {members : List (Option String × Tree)} {closed : Bool} {value : Value}
    (h : (Tree.object members closed).StandsFor value) (hkeys : (members.map Prod.fst).Nodup)
    (hfield : value.field? elementsField = some (stringArray names)) :
    namesOfTree? (.object members closed) = some names := by
  have hrel := rel_field? h hkeys elementsField
  rw [hfield] at hrel
  cases hlookup : members.lookup (some elementsField) with
  | none =>
    rw [hlookup] at hrel
    cases hrel
  | some tree =>
    rw [hlookup] at hrel
    cases hrel with
    | some htree =>
      obtain ⟨items, rfl, hitems⟩ := exists_items htree
      rw [namesOfTree?, filter_key_eq hkeys hlookup]
      exact hitems

lemma readTree_eq_ok {tree : Tree} {value : Value} (hvalue : tree.value? maxDepth = some value)
    (hnames : namesOfTree? tree = some names) : readTree tree = .ok names := by
  rw [readTree, hvalue, hnames]
  rfl

lemma readTree_stringArray (names : List String) :
    readTree (stringArray names).tree = .ok names := by
  have hfits := fits_stringArray names
  have hvalue := value?_tree_sorted _ maxDepth hfits.isWhole (hfits.depth_le.trans (by decide))
  rw [sorted_stringArray] at hvalue
  exact readTree_eq_ok hvalue (namesOfTree?_array ⟨_, hvalue⟩)

end PuzzleGate.AllowList
