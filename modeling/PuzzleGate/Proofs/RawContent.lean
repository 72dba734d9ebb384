import Mathlib.Tactic.TFAE
import PuzzleGate.Proofs.Call.Counts
import PuzzleGate.Proofs.Outcome
import PuzzleGate.Proofs.Validator

/-!
# Calls in raw text

The check of the raw text names each call once, by its own text, and the elements of a text are
named once by what their calls are read as. Leaving out repetitions before the names are read loses
none of them and keeps their order. Whether there is a call at all can be asked in several ways, and
all of them give the same answer.
-/

namespace PuzzleGate

open Call

lemma details_prohibitedRawContent (text : String) :
    (prohibitedRawContent text).details = distinct ((matchAll text).map Match.text) := by
  rw [prohibitedRawContent, Outcome.details_ofDetails, matchAll_eq_scan]

/-- The texts of the calls, each once, are read as the elements, each once. -/
lemma distinct_map_normalize (text : String) :
    distinct ((prohibitedRawContent text).details.map normalize) = elements text := by
  have hnames : (matchAll text).map Match.name =
      ((matchAll text).map Match.text).map normalize := by
    rw [List.map_map]
    rfl
  rw [details_prohibitedRawContent, distinct_map_distinct, elements_eq_distinct, hnames]

lemma firstMatch?_eq_head? (text : String) : firstMatch? text = (matchAll text).head? := by
  rw [firstMatch?_eq_first?, first?_eq_head?, matchAll_eq_scan]

lemma isMatch_eq_isSome (text : String) : isMatch text = (firstMatch? text).isSome := by
  rw [isMatch_eq_occurs, occurs_eq_isSome, firstMatch?_eq_first?]

lemma firstMatch?_eq_none_iff {text : String} : firstMatch? text = none ↔ matchAll text = [] := by
  rw [firstMatch?_eq_head?, List.head?_eq_none_iff]

lemma elements_eq_nil_iff {text : String} : elements text = [] ↔ matchAll text = [] := by
  rw [matchAll_eq_scan, List.eq_nil_iff_forall_not_mem, List.eq_nil_iff_forall_not_mem]
  simp only [mem_elements]
  constructor
  · intro h m hm
    exact h m.name ⟨m, hm, rfl⟩
  · rintro h name ⟨m, hm, -⟩
    exact h m hm

/-- The check of the raw text gives the text of each call once, in the order in which they are first
met, and reading their names and leaving out repetitions again gives the elements of the text, also
when these are counted with an index. The first match is the head of all matches, and the check
passes exactly when there is no match, no first match, no element, and no call anywhere in the
text. -/
theorem raw_calls_are_the_elements (text : String) :
    ((prohibitedRawContent text).details.Nodup ∧
      (∀ call, call ∈ (prohibitedRawContent text).details ↔
        ∃ m ∈ matchAll text, m.text = call) ∧
      (prohibitedRawContent text).details.Pairwise fun a b => ∃ m ∈ matchAll text, m.text = a ∧
        ∀ m' ∈ matchAll text, m'.text = b → m.start < m'.start) ∧
    (distinct ((prohibitedRawContent text).details.map normalize) = elements text ∧
      (tallyCounts? text).map (List.map ElementCount.name) =
        some (distinct ((prohibitedRawContent text).details.map normalize))) ∧
    (firstMatch? text = (matchAll text).head? ∧ first? text = firstMatch? text ∧
      occurs text = isMatch text) ∧
    [(prohibitedRawContent text).passed = true, isMatch text = false, firstMatch? text = none,
      elements text = [], ∀ start stop, ¬ CallAt text start stop].TFAE := by
  refine ⟨⟨?_, fun call => ?_, ?_⟩, ⟨distinct_map_normalize text, ?_⟩,
    ⟨firstMatch?_eq_head? text, (firstMatch?_eq_first? text).symm, (isMatch_eq_occurs text).symm⟩,
    ?_⟩
  · rw [details_prohibitedRawContent]
    exact nodup_distinct _
  · rw [details_prohibitedRawContent, mem_distinct, List.mem_map]
  · have hsorted : (matchAll text).Pairwise fun a b => a.start < b.start := by
      rw [matchAll_eq_scan]
      exact pairwise_start_scan text
    rw [details_prohibitedRawContent]
    exact (pairwise_distinct _).imp fun h => exists_first_of_precedes hsorted h
  · rw [distinct_map_normalize, tallyCounts?_eq]
    rfl
  · tfae_have 1 ↔ 5 := prohibitedRawContent_passed
    tfae_have 2 ↔ 3 := by
      rw [isMatch_eq_isSome, Option.isSome_eq_false_iff, Option.isNone_iff_eq_none]
    tfae_have 3 ↔ 4 := by
      rw [firstMatch?_eq_none_iff, elements_eq_nil_iff]
    tfae_have 4 ↔ 5 := by
      rw [elements_eq_nil_iff, matchAll_eq_scan, scan_eq_nil_iff]
    tfae_finish

/-- Two calls with different texts may be read as one element. -/
example : let text := "_jsx(p)_jsx(_components.p)_jsx(p)"
    (prohibitedRawContent text).details = ["_jsx(p", "_jsx(_components.p"] ∧
      elements text = ["p"] := by
  decide +kernel

end PuzzleGate
