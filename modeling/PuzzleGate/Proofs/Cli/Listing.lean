import PuzzleGate.Proofs.AllowList.File
import PuzzleGate.Proofs.Cli.Agreement

/-!
# A listed allow-list can be loaded

An allow-list that is listed as JSON is an allow-list file. Loaded from it, the list is the same:
its names are trimmed and not blank, so loading changes none of them and drops none.
-/

namespace PuzzleGate

open Files Json

namespace AllowList

variable {allowed : AllowList}

lemma decode_listText (allowed : AllowList) :
    decode readTree (Cli.listText .json allowed) = .ok allowed.names :=
  decode_eq_ok.mpr ⟨_, readTree_pretty (fits_stringArray allowed.names).isWhole,
    readTree_stringArray allowed.names⟩

/-- The built-in list, or a list that was loaded. -/
def IsAvailable (allowed : AllowList) : Prop :=
  allowed = builtIn ∨ ∃ disk path, load disk path = .ok allowed

lemma IsAvailable.exists_names (h : allowed.IsAvailable) :
    ∃ names, ofNames names = allowed ∧ allowed.names ≠ [] := by
  rcases h with rfl | ⟨disk, path, hload⟩
  · refine ⟨builtInElements, rfl, List.ne_nil_of_mem (a := "p") ?_⟩
    exact mem_ofNames.mpr ⟨by decide, "p", by decide, by decide⟩
  · obtain ⟨-, names, -, -, hnames, hne⟩ := load_eq_ok.mp hload
    exact ⟨names, hnames, hne⟩

end AllowList

namespace Cli

/-- What is printed when a list is listed as JSON is a file that the same list is loaded from. -/
theorem listing_is_loadable {allowed : AllowList} (h : allowed.IsAvailable) :
    (∀ disk config directory path, loadAllowList disk config directory path = .ok allowed →
      AllowListRequest.answer ⟨[], path, .json⟩ disk config directory =
        .ok ⟨listText .json allowed, 0⟩) ∧
    ∀ disk path, path.extension? = some (.ofText "json") →
      disk.readBytes path = .ok (Text.Utf8.encode (listText .json allowed)) →
        AllowList.load disk path = .ok allowed := by
  refine ⟨fun disk config directory path hlist => ?_, fun disk path hextension hread => ?_⟩
  · have hanswer := AllowListRequest.answer_eq hlist [] .json
    have hnone : allowed.disallowed [] = [] := rfl
    rwa [if_pos rfl, if_pos hnone] at hanswer
  · obtain ⟨names, rfl, hne⟩ := h.exists_names
    have hdecode := AllowList.decode_listText (.ofNames names)
    have hnames := AllowList.namesOfText_json hextension hdecode
    exact AllowList.load_eq_ok.mpr ⟨_, _, hread, hnames, AllowList.ofNames_names names, hne⟩

/-- Names that need escapes, and one that starts a comment where names are given line by line. -/
def oddList : AllowList := ⟨["\"\\", "#", "x\ny"]⟩

/-- A directory with a file of odd names and with the listing of these names. -/
def oddDisk : Disk :=
  ⟨.directory [(.ofText "a.json", .ofText "[\" x\\ny\", \"#\", \"\\\"\\\\\"]"),
    (.ofText "b.json", .ofText (listText .json oddList))], .ofText "/"⟩

theorem listing_is_loadable_odd :
    AllowListRequest.answer ⟨[], some (.ofText "a.json"), .json⟩ oddDisk Config.standard
        (.ofText "/") = .ok ⟨listText .json oddList, 0⟩ ∧
    AllowList.load oddDisk (.ofText "b.json") = .ok oddList := by
  have hnames : AllowList.namesOfText (.ofText "/a.json") "[\" x\\ny\", \"#\", \"\\\"\\\\\"]" =
      .ok [" x\ny", "#", "\"\\"] := AllowList.namesOfText_json (by decide) (decode_eq_ok.mpr
    ⟨.array [.string (some " x\ny"), .string (some "#"), .string (some "\"\\")] true, rfl, rfl⟩)
  have hload : AllowList.load oddDisk (.ofText "/a.json") = .ok oddList :=
    AllowList.load_eq_ok.mpr ⟨_, _, rfl, hnames, by decide, by decide⟩
  have hnamed : loadAllowList oddDisk Config.standard (.ofText "/") (some (.ofText "a.json")) =
      .ok oddList := by
    have hjoin : (Path.ofText "/").join (.ofText "a.json") = .ofText "/a.json" := by decide
    rw [loadAllowList]
    simp only [hjoin, hload]
    rfl
  obtain ⟨hanswer, hsaved⟩ := listing_is_loadable (.inr ⟨_, _, hload⟩)
  exact ⟨hanswer _ _ _ _ hnamed, hsaved _ _ (by decide) rfl⟩

end Cli

end PuzzleGate
