import Mathlib.Data.List.Basic
import Mathlib.Data.List.Perm.Basic
import PuzzleGate.Corpus.Schedule

/-!
# What every schedule does

Steps move documents and neither lose nor copy any, so a schedule that is over has finished each
document once, in some order. Permits are neither lost nor made up either, so there is always one
for the next document, and each schedule comes to its end.
-/

namespace PuzzleGate.Corpus

variable {α : Type}

/-- The documents of a run, wherever they are. -/
def Progress.all (progress : Progress α) : List α :=
  progress.waiting ++ progress.working ++ progress.finished

theorem Step.perm {a b : Progress α} (h : Step a b) : b.all.Perm a.all := by
  cases h with
  | «begin» document waiting working finished free =>
    have hmove : (waiting ++ (working ++ [document])).Perm (document :: waiting ++ working) := by
      rw [← List.append_assoc]
      exact List.perm_append_singleton document (waiting ++ working)
    exact hmove.append_right finished
  | finish document waiting before after finished free =>
    have hmove : (before ++ after ++ (finished ++ [document])).Perm
        (before ++ document :: after ++ finished) := by
      have hlast := List.perm_append_singleton document (before ++ after ++ finished)
      have hmiddle : (before ++ document :: after).Perm (document :: (before ++ after)) :=
        List.perm_middle
      rw [← List.append_assoc]
      exact hlast.trans (hmiddle.symm.append_right finished)
    simpa only [Progress.all, List.append_assoc] using hmove.append_left waiting

theorem Steps.perm {a b : Progress α} (h : Steps a b) : b.all.Perm a.all := by
  induction h with
  | refl => exact List.Perm.refl _
  | tail steps step ih => exact step.perm.trans ih

/-- A schedule that is over has finished every document once. -/
theorem Steps.perm_of_isOver {limit : Nat} {documents : List α} {progress : Progress α}
    (h : Steps (.start limit documents) progress) (hover : progress.isOver) :
    progress.finished.Perm documents := by
  obtain ⟨hwaiting, hworking⟩ := hover
  have hperm := h.perm
  simpa [Progress.all, Progress.start, hwaiting, hworking] using hperm

lemma Steps.trans {a b c : Progress α} (h : Steps a b) (h' : Steps b c) : Steps a c := by
  induction h' with
  | refl => exact h
  | tail steps step ih => exact .tail ih step

lemma Step.permits_eq {a b : Progress α} (h : Step a b) :
    b.free + b.working.length = a.free + a.working.length := by
  cases h with
  | «begin» document waiting working finished free =>
    simp only [List.length_append, List.length_singleton]
    omega
  | finish document waiting before after finished free =>
    simp only [List.length_append, List.length_cons]
    omega

/-- Every document in work holds one of the permits. -/
theorem Steps.permits_eq {limit : Nat} {documents : List α} {progress : Progress α}
    (h : Steps (.start limit documents) progress) :
    progress.free + progress.working.length = permits limit := by
  induction h with
  | refl => rfl
  | tail steps step ih => rw [step.permits_eq, ih]

/-- The number of steps that are left to take. -/
def Progress.left (progress : Progress α) : Nat :=
  2 * progress.waiting.length + progress.working.length

/-- Every step brings the end nearer. -/
theorem Step.left_eq {a b : Progress α} (h : Step a b) : a.left = b.left + 1 := by
  cases h with
  | «begin» document waiting working finished free =>
    simp only [Progress.left, List.length_append, List.length_cons, List.length_nil]
    omega
  | finish document waiting before after finished free =>
    simp only [Progress.left, List.length_append, List.length_cons]
    omega

lemma exists_step {progress : Progress α} (hover : ¬ progress.isOver)
    (hpermits : 1 ≤ progress.free + progress.working.length) : ∃ next, Step progress next := by
  obtain ⟨waiting, working, finished, free⟩ := progress
  cases working with
  | cons document working =>
    exact ⟨_, .finish document waiting [] working finished free⟩
  | nil =>
    cases waiting with
    | nil => exact absurd ⟨rfl, rfl⟩ hover
    | cons document waiting =>
      obtain ⟨others, rfl⟩ : ∃ others, free = others + 1 := Nat.exists_eq_add_one.mpr hpermits
      exact ⟨_, .begin document waiting [] finished others⟩

/-- No schedule gets stuck: each can be carried to its end. -/
theorem Steps.exists_isOver {limit : Nat} {documents : List α} {progress : Progress α}
    (h : Steps (.start limit documents) progress) :
    ∃ last, Steps progress last ∧ last.isOver := by
  -- the permits are conserved, so a schedule that is not over has a step, and each takes one off
  induction hleft : progress.left generalizing progress with
  | zero =>
    have hover : progress.isOver := by
      unfold Progress.left at hleft
      constructor <;> apply List.eq_nil_of_length_eq_zero <;> omega
    exact ⟨progress, .refl progress, hover⟩
  | succ left ih =>
    by_cases hover : progress.isOver
    · exact ⟨progress, .refl progress, hover⟩
    · have hpermits : 1 ≤ progress.free + progress.working.length := by
        rw [h.permits_eq]
        exact Nat.le_max_right limit 1
      obtain ⟨next, hstep⟩ := exists_step hover hpermits
      have hnext : next.left = left := by
        rw [hstep.left_eq] at hleft
        exact Nat.succ.inj hleft
      obtain ⟨last, hsteps, hlast⟩ := ih (h.tail hstep) hnext
      have hfirst : Steps progress next := .tail (.refl progress) hstep
      exact ⟨last, hfirst.trans hsteps, hlast⟩

end PuzzleGate.Corpus
