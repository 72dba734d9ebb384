import PuzzleGate.Proofs.Elements

/-!
# The outcomes in a report

A report has one outcome for every check, in the order of the checks, and each can be found under
its check.
-/

namespace PuzzleGate

open Call

@[simp] lemma Outcome.check_ofDetails (check : Check) (details : List String) :
    (Outcome.ofDetails check details).check = check := by
  unfold Outcome.ofDetails
  split <;> rfl

@[simp] lemma Outcome.details_ofDetails (check : Check) (details : List String) :
    (Outcome.ofDetails check details).details = details := by
  cases details <;> rfl

lemma Outcome.eq_pass_of_passed {check : Check} {details : List String}
    (h : (Outcome.ofDetails check details).passed = true) :
    Outcome.ofDetails check details = .pass check := by
  rw [Outcome.passed_ofDetails.mp h]
  rfl

def DocumentReport.Passes (report : DocumentReport) (check : Check) : Prop :=
  report.outcome? check = some (.pass check)

def DocumentReport.FailsWith (report : DocumentReport) (check : Check) (details : List String) :
    Prop :=
  report.outcome? check = some (.fail check details)

/-- The details of a check's outcome. -/
def DocumentReport.detailsOf (report : DocumentReport) (check : Check) : List String :=
  (report.outcome? check).elim [] Outcome.details

/-- The outcome of each check on a document. -/
def outcomeOf (allowed : AllowList) (document : Document) : Check → Outcome
  | .metadataPresence => metadataPresence document.frontmatter
  | .authorFormat => authorFormat document.frontmatter
  | .contributorsShape => contributorsShape document.frontmatter
  | .authorInclusion => authorInclusion document.frontmatter
  | .adaptedFromFormat => adaptedFromFormat document.frontmatter
  | .prohibitedRawContent => prohibitedRawContent document.raw
  | .elementAllowList => elementAllowList allowed (elements document.source)

lemma checks_validate (allowed : AllowList) (document : Document) :
    (validate allowed document).checks = Check.all.map (outcomeOf allowed document) := rfl

lemma exists_details (allowed : AllowList) (document : Document) (check : Check) :
    ∃ details, outcomeOf allowed document check = .ofDetails check details := by
  cases check with
  | metadataPresence =>
    rw [outcomeOf]
    cases document.frontmatter with
    | none => exact ⟨["missing frontmatter"], rfl⟩
    | some frontmatter => exact ⟨_, rfl⟩
  | authorFormat => exact ⟨_, rfl⟩
  | contributorsShape => exact ⟨_, rfl⟩
  | authorInclusion => exact ⟨_, rfl⟩
  | adaptedFromFormat => exact ⟨_, rfl⟩
  | prohibitedRawContent => exact ⟨_, rfl⟩
  | elementAllowList => exact ⟨_, rfl⟩

lemma check_outcomeOf (allowed : AllowList) (document : Document) (check : Check) :
    (outcomeOf allowed document check).check = check := by
  obtain ⟨details, hdetails⟩ := exists_details allowed document check
  rw [hdetails, Outcome.check_ofDetails]

lemma Check.mem_all (check : Check) : check ∈ Check.all := by
  cases check <;> decide

lemma find?_map_outcomeOf (allowed : AllowList) (document : Document) (check : Check)
    {checks : List Check} (h : check ∈ checks) :
    (checks.map (outcomeOf allowed document)).find? (fun outcome => outcome.check == check) =
      some (outcomeOf allowed document check) := by
  induction checks with
  | nil => cases h
  | cons first checks ih =>
    rw [List.map_cons, List.find?_cons, check_outcomeOf]
    by_cases hfirst : first = check
    · simp [hfirst]
    · rw [beq_eq_false_iff_ne.mpr hfirst]
      exact ih ((List.mem_cons.mp h).resolve_left fun heq => hfirst heq.symm)

theorem outcome?_validate (allowed : AllowList) (document : Document) (check : Check) :
    (validate allowed document).outcome? check = some (outcomeOf allowed document check) := by
  rw [DocumentReport.outcome?, checks_validate]
  exact find?_map_outcomeOf allowed document check check.mem_all

lemma detailsOf_validate (allowed : AllowList) (document : Document) (check : Check) :
    (validate allowed document).detailsOf check = (outcomeOf allowed document check).details := by
  rw [DocumentReport.detailsOf, outcome?_validate]
  rfl

lemma passes_validate {allowed : AllowList} {document : Document} {check : Check} :
    (validate allowed document).Passes check ↔
      (outcomeOf allowed document check).passed = true := by
  rw [DocumentReport.Passes, outcome?_validate, Option.some.injEq]
  obtain ⟨details, hdetails⟩ := exists_details allowed document check
  rw [hdetails]
  constructor
  · intro hpass
    rw [hpass]
    rfl
  · exact Outcome.eq_pass_of_passed

lemma passed_validate {allowed : AllowList} {document : Document} :
    (validate allowed document).passed = true ↔
      ∀ check, (outcomeOf allowed document check).passed = true := by
  rw [DocumentReport.passed, checks_validate, List.all_map, List.all_eq_true]
  exact ⟨fun h check => h check check.mem_all, fun h check _ => h check⟩

end PuzzleGate
