/-!
# Schedules

Documents are worked on at the same time, each while it holds a permit. A step of a schedule
either takes a free permit and starts the next document or finishes one that is in work and gives
its permit back. Which documents finish first is left open.
-/

namespace PuzzleGate.Corpus

/-- The number of permits that a limit allows: there is always at least one. -/
def permits (limit : Nat) : Nat := max limit 1

def maxPermits : Nat := 0x1fffffffffffffff

/-- The documents of a run by how far they are. -/
structure Progress (α : Type) where
  /-- Not started yet, in the order in which they will be. -/
  waiting : List α
  working : List α
  /-- Finished, in the order in which they finished. -/
  finished : List α
  free : Nat

def Progress.start {α : Type} (limit : Nat) (documents : List α) : Progress α :=
  ⟨documents, [], [], permits limit⟩

/-- One step of a schedule. -/
inductive Step {α : Type} : Progress α → Progress α → Prop where
  | begin (document : α) (waiting working finished : List α) (free : Nat) :
      Step ⟨document :: waiting, working, finished, free + 1⟩
        ⟨waiting, working ++ [document], finished, free⟩
  | finish (document : α) (waiting before after finished : List α) (free : Nat) :
      Step ⟨waiting, before ++ document :: after, finished, free⟩
        ⟨waiting, before ++ after, finished ++ [document], free + 1⟩

/-- Any number of steps. -/
inductive Steps {α : Type} : Progress α → Progress α → Prop where
  | refl (progress : Progress α) : Steps progress progress
  | tail {a b c : Progress α} (steps : Steps a b) (step : Step b c) : Steps a c

def Progress.isOver {α : Type} (progress : Progress α) : Prop :=
  progress.waiting = [] ∧ progress.working = []

end PuzzleGate.Corpus
