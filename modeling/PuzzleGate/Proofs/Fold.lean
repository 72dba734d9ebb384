import Mathlib.Data.List.Induction

/-!
# Folds that collect

A fold that takes in one member after the other has in the end what it had before and what it met
on the way.
-/

namespace PuzzleGate

theorem mem_foldl_iff {α β : Type} {step : β → α → β} {x : α} (has : β → Prop)
    (hstep : ∀ seen a, has (step seen a) ↔ has seen ∨ x = a) (members : List α) (seen : β) :
    has (members.foldl step seen) ↔ has seen ∨ x ∈ members := by
  induction members generalizing seen with
  | nil => simp
  | cons a members ih => rw [List.foldl_cons, ih, hstep, List.mem_cons, or_assoc]

/-- A fold that puts each new member behind those that are related to it gives back what is related
member by member. -/
theorem foldl_of_pairwise {α : Type} {step : List α → α → List α} {r : α → α → Prop}
    (hstep : ∀ seen a, (∀ b ∈ seen, r b a) → step seen a = seen ++ [a]) {members : List α}
    (h : members.Pairwise r) : members.foldl step [] = members := by
  induction members using List.reverseRecOn with
  | nil => rfl
  | append_singleton members a ih =>
    obtain ⟨hmembers, -, hlast⟩ := List.pairwise_append.mp h
    rw [List.foldl_append, ih hmembers, List.foldl_cons, List.foldl_nil]
    exact hstep members a fun b hb => hlast b hb a (List.mem_singleton_self a)

end PuzzleGate
