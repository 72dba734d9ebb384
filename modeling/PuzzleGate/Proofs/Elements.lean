import PuzzleGate.Proofs.AllowList
import PuzzleGate.Proofs.Call.Elements
import PuzzleGate.Proofs.Call.Overlap
import PuzzleGate.Validator

/-!
# No element is hidden from the allow-list

The check of the elements sees only the calls that the scan finds. A call that the scan passes over
begins in a name that ends with the name of a wrapper. A list without such names refuses the outer
call, so passing the check means that every call in the text renders an allowed element.
-/

namespace PuzzleGate

open Call

lemma Outcome.passed_ofDetails {check : Check} {details : List String} :
    (Outcome.ofDetails check details).passed = true ↔ details = [] := by
  cases details <;> simp [Outcome.ofDetails, Outcome.pass, Outcome.fail]

lemma elementAllowList_passed {allowed : AllowList} {names : List String} :
    (elementAllowList allowed names).passed = true ↔
      ∀ name ∈ names, allowed.contains name = true := by
  rw [elementAllowList, Outcome.passed_ofDetails, AllowList.disallowed, List.filter_eq_nil_iff]
  simp

/-- The check passes when the calls that the scan finds have allowed names. -/
theorem elementAllowList_passed_iff_scan {allowed : AllowList} {source : String} :
    (elementAllowList allowed (elements source)).passed = true ↔
      ∀ m ∈ scan source, m.name ∈ allowed.names := by
  rw [elementAllowList_passed]
  constructor
  · intro h m hm
    simpa [AllowList.contains] using h m.name (mem_elements.mpr ⟨m, hm, rfl⟩)
  · intro h name hname
    obtain ⟨m, hm, rfl⟩ := mem_elements.mp hname
    simpa [AllowList.contains] using h m hm

/-- No name of the list ends with the name of a wrapper. -/
def AllowList.NamesNoWrapper (allowed : AllowList) : Prop :=
  ∀ name ∈ allowed.names, ∀ wrapper : Wrapper, ¬ wrapper.called <:+ name.toList

lemma namesNoWrapper_builtIn : AllowList.builtIn.NamesNoWrapper := by
  have hnames : ∀ name ∈ AllowList.builtInElements, ∀ wrapper ∈ [Wrapper.multi, .single],
      ¬ wrapper.called <:+ (Text.trim name).toList := by
    decide +kernel
  intro name hname wrapper
  obtain ⟨-, n, hn, rfl⟩ := AllowList.mem_ofNames.mp hname
  exact hnames n hn wrapper (by cases wrapper <;> simp)

lemma exists_hiding_of_longestCallAt {text call : String} {place : Nat}
    (h : LongestCallAt text place call) :
    (∃ m ∈ scan text, m.start = place ∧ m.text = call) ∨
    ∃ m ∈ scan text, m.Hides place call ∧
      ∀ m' ∈ scan text, m'.start ≤ place → place < m'.stop → m' = m := by
  obtain ⟨before, after, wrapper, shape, name, htext, rfl, hfound, rfl⟩ :=
    exists_front_of_longestCallAt h
  have hcases := (scans_scan text).found_or_hidden htext hfound
  rw [Nat.zero_add] at hcases
  rcases hcases with hstart | ⟨m, hm, hhides⟩
  · exact .inl hstart
  · refine .inr ⟨m, hm, hhides, fun m' hm' hstart hstop => ?_⟩
    exact eq_of_mem_scan hm hm' hhides.start_le hhides.lt_stop hstart hstop

/-- Every call in a text is one that the regular expression finds, or begins in the name of exactly
one that is found and that ends with the name of a wrapper. So a list that allows no such name, as
the built-in one, passes a text exactly when it allows the longest call at every place. -/
theorem every_call_is_checked (text : String) :
    (∀ place stop, CallAt text place stop → ∃ call, LongestCallAt text place call ∧
      ((∃ m ∈ matchAll text, m.start = place ∧ m.text = call) ∨
      ∃ m ∈ matchAll text, m.Hides place call ∧
        ∀ m' ∈ matchAll text, m'.start ≤ place → place < m'.stop → m' = m)) ∧
    (∀ allowed : AllowList, allowed.NamesNoWrapper →
      ((elementAllowList allowed (elements text)).passed = true ↔
        ∀ place call, LongestCallAt text place call → normalize call ∈ allowed.names)) ∧
    AllowList.builtIn.NamesNoWrapper := by
  rw [matchAll_eq_scan]
  refine ⟨fun place stop hcall => ?_, fun allowed hallowed => ?_, namesNoWrapper_builtIn⟩
  · obtain ⟨call, hlongest⟩ := exists_longestCallAt hcall
    exact ⟨call, hlongest, exists_hiding_of_longestCallAt hlongest⟩
  · rw [elementAllowList_passed_iff_scan]
    constructor
    · intro h place call hlongest
      rcases exists_hiding_of_longestCallAt hlongest with ⟨m, hm, -, rfl⟩ | ⟨m, hm, hhides, -⟩
      · exact h m hm
      · obtain ⟨wrapper, hsuffix⟩ := hhides.exists_suffix
        exact absurd hsuffix (hallowed _ (h m hm) wrapper)
    · intro h m hm
      exact h _ _ (longestCallAt_of_mem_scan hm)

/-- A hidden call may begin with the first byte of the name that hides it. -/
theorem hidden_at_name_start : ¬ ∀ (text : String) (place stop : Nat), CallAt text place stop →
    (∃ m ∈ matchAll text, m.start = place) ∨
    ∃ m ∈ matchAll text, m.nameStart < place ∧ place < m.nameStop := by
  intro h
  have hcall : CallAt "_jsx(_jsx(script" 5 16 := by
    refine ⟨"_jsx(", "_jsx(script", "", rfl, ?_, rfl, rfl⟩
    exact ⟨.single, .ident, "script".toList, .ident _ _ ⟨by decide, List.all_eq_true.mp rfl⟩⟩
  have hfound : matchAll "_jsx(_jsx(script" = [⟨0, .single, .ident, "_jsx(_jsx"⟩] := by
    rw [matchAll_eq_scan]
    decide
  have hcases := h _ _ _ hcall
  rw [hfound] at hcases
  revert hcases
  decide

end PuzzleGate
