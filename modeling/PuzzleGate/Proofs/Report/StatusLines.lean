import Mathlib.Data.List.Perm.Basic
import PuzzleGate.Proofs.Json.OneLine
import PuzzleGate.Proofs.Report.Counters
import PuzzleGate.Proofs.Text.Pieces

/-!
# Status lines of a summary

The summary has one line for every entry that begins with the entry's status. All other texts of an
entry are quoted as they are: what such a text has behind its first line feed stands at the start of
a line, and can look like the status of an entry that does not exist.
-/

namespace PuzzleGate

open Text

/-- What the summary says of an entry. -/
inductive Status where
  | passed
  | failed
  | errored
deriving DecidableEq

namespace Status

def all : List Status := [.passed, .failed, .errored]

/-- How a line begins that says so. -/
def word : Status → String
  | .passed => "PASS "
  | .failed => "FAIL "
  | .errored => "ERROR "

def begins (status : Status) (line : String) : Bool := status.word.toList.isPrefixOf line.toList

lemma mem_all (status : Status) : status ∈ all := by
  cases status <;> decide

lemma begins_append (status other : Status) (text : String) :
    status.begins (other.word ++ text) = (status == other) := by
  rw [begins, String.toList_append]
  cases status <;> cases other <;> rfl

lemma feed_not_mem_word (status : Status) : '\n' ∉ status.word.toList := by
  cases status <;> decide

end Status

def isStatusLine (line : String) : Bool := Status.all.any fun status => status.begins line

/-- The lines of a text that look like the status of an entry. -/
def statusLinesIn (text : String) : List String := (pieces text).filter isStatusLine

/-- The lines behind its first one that look so. They look so wherever the text is quoted. -/
def forgedBy (text : String) : List String := (pieces text).tail.filter isStatusLine

lemma isStatusLine_append (status : Status) (text : String) :
    isStatusLine (status.word ++ text) = true :=
  List.any_eq_true.mpr ⟨status, status.mem_all, by rw [Status.begins_append, beq_self_eq_true]⟩

/-- The front has no line feed, and a line that begins with it says no status. -/
structure OpensQuote (front : String) : Prop where
  feed_not_mem : '\n' ∉ front.toList
  not_status : ∀ status ∈ Status.all,
    ¬ status.word.toList <+: front.toList ∧ ¬ front.toList <+: status.word.toList

instance (front : String) : Decidable (OpensQuote front) :=
  decidable_of_iff _ ⟨fun h => ⟨h.1, h.2⟩, fun h => And.intro h.feed_not_mem h.not_status⟩

lemma OpensQuote.not_prefix_append {front : String} (h : OpensQuote front) (text : String)
    (status : Status) : ¬ status.word.toList <+: (front ++ text).toList := by
  intro hword
  rw [String.toList_append] at hword
  obtain ⟨hfront, hstatus⟩ := h.not_status status status.mem_all
  exact (List.prefix_or_prefix_of_prefix hword (List.prefix_append ..)).elim hfront hstatus

lemma OpensQuote.isStatusLine_append {front : String} (h : OpensQuote front) (text : String) :
    isStatusLine (front ++ text) = false :=
  List.any_eq_false.mpr fun status _ hbegins =>
    h.not_prefix_append text status (List.isPrefixOf_iff_prefix.mp hbegins)

lemma OpensQuote.append {front text : String} (h : OpensQuote front) (htext : '\n' ∉ text.toList) :
    OpensQuote (front ++ text) := by
  refine ⟨by simp [h.feed_not_mem, htext], fun status hstatus => ⟨h.not_prefix_append text status,
    fun hword => (h.not_status status hstatus).2 ?_⟩⟩
  exact (String.toList_append ▸ List.prefix_append front.toList text.toList).trans hword

lemma forgedBy_of_not_mem {text : String} (h : '\n' ∉ text.toList) : forgedBy text = [] := by
  rw [forgedBy, pieces_of_not_mem h]
  rfl

/-- Of a quoted text only the lines behind its first one count. -/
lemma OpensQuote.statusLinesIn_append {front : String} (h : OpensQuote front) (text : String) :
    statusLinesIn (front ++ text) = forgedBy text := by
  have hnot := h.isStatusLine_append (headPiece text)
  rw [statusLinesIn, pieces_append h.feed_not_mem, List.filter_cons_of_neg (by simp [hnot]),
    forgedBy]

lemma OpensQuote.statusLinesIn_eq_nil {line : String} (h : OpensQuote line) :
    statusLinesIn line = [] := by
  have hline := h.statusLinesIn_append ""
  rwa [String.append_empty, forgedBy_of_not_mem (by simp)] at hline

lemma OpensQuote.statusLinesIn_count {front : String} (h : OpensQuote front) (n : Nat) :
    statusLinesIn (front ++ toString n) = [] := by
  have hdigits : '\n' ∉ (toString n).toList := by
    rw [Nat.toString_eq_ofList_toDigits, String.toList_ofList]
    exact Decimal.feed_not_mem_natDigits n
  rw [h.statusLinesIn_append, forgedBy_of_not_mem hdigits]

lemma statusLinesIn_status (status : Status) (text : String) :
    statusLinesIn (status.word ++ text) = (status.word ++ headPiece text) :: forgedBy text := by
  rw [statusLinesIn, pieces_append status.feed_not_mem_word,
    List.filter_cons_of_pos (isStatusLine_append status _), forgedBy]

/-! ### Entries of a summary -/

/-- What the summary has of an entry. -/
structure Entry where
  status : Status
  document : String
  /-- The texts that are quoted behind the status line. -/
  details : List String

namespace Entry

def statusLine (entry : Entry) : String := entry.status.word ++ entry.document

/-- All texts of the entry that are printed as they are. -/
def quoted (entry : Entry) : List String := entry.document :: entry.details

/-- The line that the entry is seen to begin with. -/
def shownLine (entry : Entry) : String := entry.status.word ++ headPiece entry.document

lemma shownLine_eq_iff {entry : Entry} :
    entry.shownLine = entry.statusLine ↔ '\n' ∉ entry.document.toList := by
  rw [shownLine, statusLine, String.append_right_inj, headPiece_eq_iff]

end Entry

def DocumentReport.entry (report : DocumentReport) : Entry where
  status := if report.passed then .passed else .failed
  document := report.document
  details := report.failures.flatMap Outcome.details

def DocumentFailure.entry (failure : DocumentFailure) : Entry :=
  ⟨.errored, failure.document, [failure.error]⟩

lemma DocumentReport.statusLine_entry (report : DocumentReport) :
    report.entry.statusLine = report.statusLine := by
  rw [Entry.statusLine, entry, statusLine]
  split_ifs <;> rfl

lemma Outcome.statusLinesIn_heading (outcome : Outcome) :
    statusLinesIn s!"  ✗ {outcome.check.name} ({outcome.check.description})" = [] := by
  have hname : '\n' ∉ outcome.check.name.toList := by
    cases outcome.check <;> simp [Check.name]
  have hdescription : '\n' ∉ outcome.check.description.toList := by
    cases outcome.check <;> simp [Check.description]
  have hfront : OpensQuote "  ✗ " := by decide
  have hopening : '\n' ∉ " (".toList := by simp
  have hclosing : '\n' ∉ ")".toList := by simp
  have hheading := (((hfront.append hname).append hopening).append hdescription).append hclosing
  exact hheading.statusLinesIn_eq_nil

lemma statusLinesIn_detail (detail : String) :
    statusLinesIn ("      " ++ detail) = forgedBy detail :=
  OpensQuote.statusLinesIn_append (by decide) detail

lemma Outcome.statusLinesIn_lines (outcome : Outcome) :
    outcome.lines.flatMap statusLinesIn = outcome.details.flatMap forgedBy := by
  rw [lines, List.flatMap_cons, statusLinesIn_heading, List.nil_append, List.flatMap_map]
  exact List.flatMap_congr fun detail _ => statusLinesIn_detail detail

lemma DocumentReport.statusLinesIn_lines (report : DocumentReport) :
    report.lines.flatMap statusLinesIn =
      report.entry.shownLine :: report.entry.quoted.flatMap forgedBy := by
  have hdetails : (report.failures.flatMap Outcome.lines).flatMap statusLinesIn =
      report.entry.details.flatMap forgedBy := by
    rw [entry, List.flatMap_assoc, List.flatMap_assoc]
    exact List.flatMap_congr fun outcome _ => outcome.statusLinesIn_lines
  rw [lines, List.flatMap_cons, hdetails, ← statusLine_entry, Entry.statusLine,
    statusLinesIn_status]
  rfl

lemma DocumentFailure.statusLinesIn_lines (failure : DocumentFailure) :
    failure.lines.flatMap statusLinesIn =
      failure.entry.shownLine :: failure.entry.quoted.flatMap forgedBy := by
  have hstatus : statusLinesIn failure.statusLine =
      failure.entry.shownLine :: forgedBy failure.document :=
    statusLinesIn_status .errored failure.document
  rw [lines, List.flatMap_cons, List.flatMap_singleton, statusLinesIn_detail, hstatus]
  simp [Entry.quoted, entry]

namespace CorpusReport

variable (report : CorpusReport)

def entries : List Entry :=
  report.documents.map DocumentReport.entry ++ report.failures.map DocumentFailure.entry

/-- The lines that say the status of the entries, in the order of the report. -/
def statusLines : List String :=
  report.documents.map DocumentReport.statusLine ++
    report.failures.map DocumentFailure.statusLine

/-- All texts that the summary prints as they are. -/
def quoted : List String := report.entries.flatMap Entry.quoted ++ [report.root]

/-- The lines that look like the status of an entry and are none. -/
def forged : List String := report.quoted.flatMap forgedBy

lemma statusLines_eq : report.statusLines = report.entries.map Entry.statusLine := by
  have hdocuments : Entry.statusLine ∘ DocumentReport.entry = DocumentReport.statusLine :=
    funext DocumentReport.statusLine_entry
  rw [entries, List.map_append, List.map_map, List.map_map, hdocuments]
  rfl

lemma statusLinesIn_summaryLines :
    report.summaryLines.flatMap statusLinesIn = forgedBy report.root := by
  have hempty : statusLinesIn "" = [] := by decide
  have htitle : statusLinesIn "=== Puzzle Content Validation ===" = [] :=
    OpensQuote.statusLinesIn_eq_nil (by decide)
  have hroot : statusLinesIn s!"Root:    {report.root}" = forgedBy report.root :=
    OpensQuote.statusLinesIn_append (by decide : OpensQuote "Root:    ") report.root
  have htotal : statusLinesIn s!"Total:   {report.total}" = [] :=
    OpensQuote.statusLinesIn_count (by decide : OpensQuote "Total:   ") report.total
  have hpassed : statusLinesIn s!"Passed:  {report.passedCount}" = [] :=
    OpensQuote.statusLinesIn_count (by decide : OpensQuote "Passed:  ") report.passedCount
  have hfailed : statusLinesIn s!"Failed:  {report.documents.length - report.passedCount}" = [] :=
    OpensQuote.statusLinesIn_count (by decide : OpensQuote "Failed:  ") _
  have herrored : statusLinesIn s!"Errored: {report.failures.length}" = [] :=
    OpensQuote.statusLinesIn_count (by decide : OpensQuote "Errored: ") report.failures.length
  rw [summaryLines]
  simp only [List.flatMap_cons, List.flatMap_nil, hempty, htitle, hroot, htotal, hpassed, hfailed,
    herrored, List.nil_append, List.append_nil]

lemma statusLinesIn_text : statusLinesIn report.text =
    (report.entries.flatMap fun entry => entry.shownLine :: entry.quoted.flatMap forgedBy) ++
      forgedBy report.root := by
  have hne : report.lines ≠ [] := by simp [lines, summaryLines]
  have hlines : statusLinesIn report.text = report.lines.flatMap statusLinesIn := by
    rw [statusLinesIn, text, pieces_intercalate hne, List.filter_flatMap]
    rfl
  have hdocuments : (report.documents.flatMap DocumentReport.lines).flatMap statusLinesIn =
      (report.documents.map DocumentReport.entry).flatMap fun entry =>
        entry.shownLine :: entry.quoted.flatMap forgedBy := by
    rw [List.flatMap_assoc, List.flatMap_map]
    exact List.flatMap_congr fun document _ => document.statusLinesIn_lines
  have hfailures : (report.failures.flatMap DocumentFailure.lines).flatMap statusLinesIn =
      (report.failures.map DocumentFailure.entry).flatMap fun entry =>
        entry.shownLine :: entry.quoted.flatMap forgedBy := by
    rw [List.flatMap_assoc, List.flatMap_map]
    exact List.flatMap_congr fun failure _ => failure.statusLinesIn_lines
  rw [hlines, lines, List.flatMap_append, List.flatMap_append, hdocuments, hfailures,
    statusLinesIn_summaryLines, entries, List.flatMap_append]

lemma forged_eq : report.forged =
    (report.entries.flatMap fun entry => entry.quoted.flatMap forgedBy) ++
      forgedBy report.root := by
  rw [forged, quoted, List.flatMap_append, List.flatMap_assoc, List.flatMap_singleton]

lemma isStatusLine_of_mem_forged {line : String} (h : line ∈ report.forged) :
    isStatusLine line = true := by
  obtain ⟨text, -, hline⟩ := List.mem_flatMap.mp h
  exact (List.mem_filter.mp hline).2

lemma forged_eq_nil_iff :
    (∀ status : Status, report.forged.countP status.begins = 0) ↔ report.forged = [] := by
  constructor
  · intro h
    refine List.eq_nil_iff_forall_not_mem.mpr fun line hline => ?_
    obtain ⟨status, -, hbegins⟩ := List.any_eq_true.mp (report.isStatusLine_of_mem_forged hline)
    exact List.countP_eq_zero.mp (h status) line hline hbegins
  · intro h status
    rw [h, List.countP_nil]

/-- Every entry has a line that says its status, and all other lines that look so are forged. -/
theorem statusLinesIn_text_perm : (statusLinesIn report.text).Perm
    (report.entries.map Entry.shownLine ++ report.forged) := by
  rw [statusLinesIn_text, forged_eq, ← List.append_assoc]
  exact (List.map_append_flatMap_perm ..).symm.append_right _

/-! ### Counting the lines -/

lemma countP_statusLines (status : Status) : report.statusLines.countP status.begins =
    report.entries.countP fun entry => status == entry.status := by
  rw [statusLines_eq, List.countP_map]
  exact List.countP_congr fun entry _ => by
    rw [Function.comp_apply, Entry.statusLine, Status.begins_append]

/-- Counting the lines of one status gives the entries of that status and the forged lines. -/
theorem countP_statusLinesIn_text (status : Status) :
    (statusLinesIn report.text).countP status.begins =
      report.statusLines.countP status.begins + report.forged.countP status.begins := by
  have hshown : (report.entries.map Entry.shownLine).countP status.begins =
      report.statusLines.countP status.begins := by
    rw [countP_statusLines, List.countP_map]
    exact List.countP_congr fun entry _ => by
      rw [Function.comp_apply, Entry.shownLine, Status.begins_append]
  rw [report.statusLinesIn_text_perm.countP_eq, List.countP_append, hshown]

/-- The lines that look like a status are the status lines of the entries exactly when none is
forged and no identifier has a line feed in it. -/
theorem statusLinesIn_text_eq_iff : statusLinesIn report.text = report.statusLines ↔
    report.forged = [] ∧ ∀ entry ∈ report.entries, '\n' ∉ entry.document.toList := by
  have hshown : report.forged = [] →
      statusLinesIn report.text = report.entries.map Entry.shownLine := by
    intro hforged
    rw [forged_eq, List.append_eq_nil_iff, List.flatMap_eq_nil_iff] at hforged
    rw [statusLinesIn_text, hforged.2, List.append_nil, List.map_eq_flatMap]
    exact List.flatMap_congr fun entry hentry => by rw [hforged.1 entry hentry]
  have hsame : report.entries.map Entry.shownLine = report.statusLines ↔
      ∀ entry ∈ report.entries, '\n' ∉ entry.document.toList := by
    rw [statusLines_eq, List.map_inj_left]
    simp only [Entry.shownLine_eq_iff]
  constructor
  · intro h
    have hlength := report.statusLinesIn_text_perm.length_eq
    rw [h, statusLines_eq, List.length_append, List.length_map, List.length_map] at hlength
    have hforged : report.forged = [] := List.length_eq_zero_iff.mp (by omega)
    exact ⟨hforged, hsame.mp ((hshown hforged).symm.trans h)⟩
  · rintro ⟨hforged, hfeed⟩
    exact (hshown hforged).trans (hsame.mpr hfeed)

end CorpusReport

/-- The number of entries of a status. -/
def Counters.of (counters : Counters) : Status → Nat
  | .passed => counters.passed
  | .failed => counters.failed
  | .errored => counters.errored

/-- The status lines of the entries are as many as the summary says. -/
theorem CorpusReport.countP_statusLines_eq (report : CorpusReport) (status : Status) :
    report.statusLines.countP status.begins = report.counters.of status := by
  have hfailures (failures : List DocumentFailure) : (failures.map DocumentFailure.entry).countP
      (fun entry => status == entry.status) = if status = .errored then failures.length else 0 := by
    rw [List.countP_map]
    split_ifs with hstatus
    · exact List.countP_eq_length.mpr fun failure _ => by simp [hstatus, DocumentFailure.entry]
    · exact List.countP_eq_zero.mpr fun failure _ => by simp [hstatus, DocumentFailure.entry]
  have hpassed : report.passedCount = report.documents.countP DocumentReport.passed :=
    report.passedCount_eq_countP
  rw [countP_statusLines, entries, List.countP_append, List.countP_map, hfailures]
  cases status with
  | passed =>
    rw [if_neg (by decide), Nat.add_zero, Counters.of, counters, hpassed]
    refine List.countP_congr fun document _ => ?_
    cases hdocument : document.passed <;> simp [DocumentReport.entry, hdocument]
  | failed =>
    have hlength := List.length_eq_countP_add_countP DocumentReport.passed (l := report.documents)
    rw [if_neg (by decide), Nat.add_zero, Counters.of, counters, hpassed]
    dsimp only
    rw [hlength, Nat.add_sub_cancel_left]
    refine List.countP_congr fun document _ => ?_
    cases hdocument : document.passed <;> simp [DocumentReport.entry, hdocument]
  | errored =>
    have hnone : (report.documents.countP
        ((fun entry : Entry => Status.errored == entry.status) ∘ DocumentReport.entry)) = 0 := by
      refine List.countP_eq_zero.mpr fun document _ => ?_
      cases hdocument : document.passed <;> simp [DocumentReport.entry, hdocument]
    rw [if_pos rfl, hnone, Nat.zero_add]
    rfl

end PuzzleGate
