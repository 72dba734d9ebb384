import PuzzleGate.Proofs.Corpus.Independence

/-!
# The log of a schedule

Every step of a schedule begins a document or ends one, and a schedule can be logged by these
events. Whatever the log is, no document was begun twice, those that are in work are the ones that
were begun and not ended, and each of them holds one of the permits. There is always a next event
until all documents are finished.
-/

namespace PuzzleGate.Corpus

open Files

variable {α : Type}

/-- What a step does to a document. -/
inductive Event (α : Type) where
  | begun (document : α)
  | ended (document : α)

/-- The event is what happens between these states. -/
def Event.Between (a b : Progress α) : Event α → Prop
  | .begun document => a.waiting = document :: b.waiting ∧ b.finished = a.finished
  | .ended document => b.waiting = a.waiting ∧ b.finished = a.finished ++ [document]

def Event.begun? : Event α → Option α
  | .begun document => some document
  | .ended _ => none

def Event.ended? : Event α → Option α
  | .begun _ => none
  | .ended document => some document

/-- The state is reached by steps with these events, in their order. -/
inductive Logged (first : Progress α) : List (Event α) → Progress α → Prop where
  | start : Logged first [] first
  | next {log : List (Event α)} {event : Event α} {a b : Progress α} (before : Logged first log a)
      (step : Step a b) (between : event.Between a b) : Logged first (log ++ [event]) b

/-- The documents that were begun, in the order in which they were. -/
def begunIn (log : List (Event α)) : List α := log.filterMap Event.begun?

def endedIn (log : List (Event α)) : List α := log.filterMap Event.ended?

lemma Step.exists_event {a b : Progress α} (h : Step a b) :
    ∃ event : Event α, event.Between a b := by
  cases h with
  | «begin» document => exact ⟨.begun document, rfl, rfl⟩
  | finish document => exact ⟨.ended document, rfl, rfl⟩

theorem Steps.exists_log {first last : Progress α} (h : Steps first last) :
    ∃ log, Logged first log last := by
  induction h with
  | refl => exact ⟨[], .start⟩
  | tail steps step ih =>
    obtain ⟨log, hlog⟩ := ih
    obtain ⟨event, hevent⟩ := step.exists_event
    exact ⟨log ++ [event], hlog.next step hevent⟩

lemma Logged.steps {first last : Progress α} {log : List (Event α)} (h : Logged first log last) :
    Steps first last := by
  induction h with
  | start => exact .refl first
  | next before step between ih => exact .tail ih step

/-- What was begun is what was waiting first and is no longer. -/
theorem Logged.begun_append_waiting {first last : Progress α} {log : List (Event α)}
    (h : Logged first log last) : begunIn log ++ last.waiting = first.waiting := by
  induction h with
  | start => rfl
  | @next log event a b before step between ih =>
    cases event with
    | begun document =>
      rw [← ih, between.1]
      simp [begunIn, Event.begun?]
    | ended document =>
      rw [← ih, between.1]
      simp [begunIn, Event.begun?]

theorem Logged.finished_eq {first last : Progress α} {log : List (Event α)}
    (h : Logged first log last) : last.finished = first.finished ++ endedIn log := by
  induction h with
  | start => simp [endedIn]
  | @next log event a b before step between ih =>
    cases event with
    | begun document =>
      rw [between.2, ih]
      simp [endedIn, Event.ended?]
    | ended document =>
      rw [between.2, ih]
      simp [endedIn, Event.ended?]

/-- The documents in work are those that were begun and not ended. -/
theorem Logged.begun_perm {limit : Nat} {documents : List α} {progress : Progress α}
    {log : List (Event α)} (h : Logged (.start limit documents) log progress) :
    (begunIn log).Perm (progress.working ++ endedIn log) := by
  have hfinished : progress.finished = endedIn log := h.finished_eq
  have hwaiting : begunIn log ++ progress.waiting = documents := h.begun_append_waiting
  have hall : (progress.waiting ++ (progress.working ++ endedIn log)).Perm
      (begunIn log ++ progress.waiting) := by
    rw [hwaiting, ← hfinished, ← List.append_assoc]
    simpa [Progress.all, Progress.start] using h.steps.perm
  exact ((List.perm_append_left_iff _).mp (hall.trans List.perm_append_comm)).symm

lemma Steps.exists_event {limit : Nat} {documents : List α} {progress : Progress α}
    (h : Steps (.start limit documents) progress) (hover : ¬ progress.isOver) :
    ∃ next, ∃ event : Event α, Step progress next ∧ event.Between progress next := by
  have hpermits : 1 ≤ progress.free + progress.working.length := by
    rw [h.permits_eq]
    exact Nat.le_max_right limit 1
  obtain ⟨next, hstep⟩ := exists_step hover hpermits
  obtain ⟨event, hevent⟩ := hstep.exists_event
  exact ⟨next, event, hstep, hevent⟩

/-- In every state that a run can reach, at most as many documents are in work as the limit allows,
or one if it allows none, and the free permits are all the others. However that state was reached,
no document was begun twice, none was begun but those in work and those that were ended, and unless
all are finished something can happen next. -/
theorem Walker.schedules_are_bounded (walker : Walker) {disk : Disk}
    (hsound : disk.root.isSound = true) {paths : List Path}
    (hpaths : discover disk walker.root walker.extensions = .ok paths) {progress : Progress Path}
    (h : Steps (.start walker.limit paths) progress) :
    progress.working.length ≤ max walker.limit 1 ∧
    progress.free + progress.working.length = max walker.limit 1 ∧
    (∃ log, Logged (.start walker.limit paths) log progress) ∧
    (∀ log, Logged (.start walker.limit paths) log progress →
      begunIn log ++ progress.waiting = paths ∧ (begunIn log).Nodup ∧
      (begunIn log).Perm (progress.working ++ endedIn log)) ∧
    (¬ progress.isOver →
      ∃ next, ∃ event : Event Path, Step progress next ∧ event.Between progress next) := by
  have hpermits : progress.free + progress.working.length = max walker.limit 1 := h.permits_eq
  have hdistinct : paths.Nodup := nodup_paths hsound hpaths
  refine ⟨hpermits ▸ Nat.le_add_left _ _, hpermits, h.exists_log, fun log hlog => ?_, ?_⟩
  · have hwaiting : begunIn log ++ progress.waiting = paths := hlog.begun_append_waiting
    refine ⟨hwaiting, ?_, hlog.begun_perm⟩
    rw [← hwaiting] at hdistinct
    exact hdistinct.of_append_left
  · exact h.exists_event

/-- With a limit of zero the corpus of two documents is worked on one at a time: when the first is
begun no permit is left, and something can still happen. -/
theorem schedules_are_bounded_zero :
    Steps (.start 0 [.ofText "/p/a.mdx", .ofText "/p/b.mdx"])
      (⟨[.ofText "/p/b.mdx"], [.ofText "/p/a.mdx"], [], 0⟩ : Progress Path) ∧
    ∃ next, ∃ event : Event Path,
      Step ⟨[.ofText "/p/b.mdx"], [.ofText "/p/a.mdx"], [], 0⟩ next ∧
        event.Between ⟨[.ofText "/p/b.mdx"], [.ofText "/p/a.mdx"], [], 0⟩ next := by
  have hsteps : Steps (.start 0 [.ofText "/p/a.mdx", .ofText "/p/b.mdx"])
      (⟨[.ofText "/p/b.mdx"], [.ofText "/p/a.mdx"], [], 0⟩ : Progress Path) :=
    .tail (.refl _) (.begin _ _ [] [] 0)
  have hbounded := Walker.schedules_are_bounded { pairWalker with limit := 0 } (by decide)
    discover_pair hsteps
  refine ⟨hsteps, hbounded.2.2.2.2 fun hover => ?_⟩
  cases hover.1

end PuzzleGate.Corpus
