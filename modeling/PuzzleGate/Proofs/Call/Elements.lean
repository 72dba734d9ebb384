import PuzzleGate.Call.Elements
import PuzzleGate.Proofs.Fold
import PuzzleGate.Proofs.Call.Scan

/-!
# The elements are the names of the calls

Counting neither loses nor invents a name: the elements of a text are the names of the calls that
the scan finds in it.
-/

namespace PuzzleGate.Call

lemma mem_count {name other : String} {entries : List ElementCount} :
    name ∈ (count other entries).map ElementCount.name ↔
      name ∈ entries.map ElementCount.name ∨ name = other := by
  induction entries with
  | nil => simp [count]
  | cons entry entries ih =>
    rw [count]
    split
    · rename_i heq
      simp [heq, or_comm]
    · rw [List.map_cons, List.mem_cons, ih, List.map_cons, List.mem_cons, or_assoc]

theorem mem_elements {name text : String} :
    name ∈ elements text ↔ ∃ m ∈ scan text, m.name = name := by
  have hcount := mem_foldl_iff (fun entries => name ∈ entries.map ElementCount.name)
    (fun entries other => mem_count) ((scan text).map Match.name) []
  rw [elements, elementCounts, countNames, hcount]
  simp

lemma mem_distinct {text : String} {texts : List String} :
    text ∈ distinct texts ↔ text ∈ texts := by
  have hstep (seen : List String) (other : String) :
      text ∈ (if seen.contains other then seen else seen ++ [other]) ↔
        text ∈ seen ∨ text = other := by
    by_cases hseen : other ∈ seen
    · have hknown : text = other → text ∈ seen := fun heq => heq ▸ hseen
      simp [hseen]
      exact hknown
    · simp [hseen]
  rw [distinct, mem_foldl_iff (text ∈ ·) hstep]
  simp

lemma firstFrom?_eq_head? (position : Nat) (s : List Char) :
    firstFrom? position s = (scanFrom 0 position s).head? := by
  induction s generalizing position with
  | nil => rfl
  | cons c s ih =>
    rw [firstFrom?, scanFrom]
    cases frontCall? (c :: s) with
    | none => exact ih _
    | some parts => rfl

theorem first?_eq_head? (text : String) : first? text = (scan text).head? :=
  firstFrom?_eq_head? 0 text.toList

lemma occursIn_eq_isSome (position : Nat) (s : List Char) :
    occursIn s = (firstFrom? position s).isSome := by
  induction s generalizing position with
  | nil => rfl
  | cons c s ih =>
    rw [occursIn, firstFrom?]
    cases frontCall? (c :: s) with
    | none => exact ih _
    | some parts => rfl

theorem occurs_eq_isSome (text : String) : occurs text = (first? text).isSome :=
  occursIn_eq_isSome 0 text.toList

theorem scan_eq_nil_iff {text : String} :
    scan text = [] ↔ ∀ start stop, ¬ CallAt text start stop := by
  have hspans := leftmostLongest_scan text
  constructor
  · intro hnil start stop
    rw [hnil, List.map_nil] at hspans
    cases hspans with
    | done none => exact none start stop (Nat.zero_le start)
  · intro hnone
    cases hscan : scan text with
    | nil => rfl
    | cons m calls =>
      rw [hscan, List.map_cons] at hspans
      cases hspans with
      | next behind span => exact absurd span (hnone _ _)

end PuzzleGate.Call
