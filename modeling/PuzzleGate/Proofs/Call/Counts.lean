import Mathlib.Algebra.BigOperators.Group.List.Lemmas
import PuzzleGate.Call.Tally
import PuzzleGate.Proofs.Call.Elements
import PuzzleGate.Proofs.Call.Pattern

/-!
# Counts are exact

Counting the members of a list gives each different one once, in the order of its first occurrence,
with the number of its occurrences. A pass that keeps an index of the names does the same, because
its index always agrees with its counts.
-/

namespace PuzzleGate.Call

lemma distinct_append_singleton (names : List String) (name : String) :
    distinct (names ++ [name]) =
      if name ∈ distinct names then distinct names else distinct names ++ [name] := by
  have hlast : distinct (names ++ [name]) =
      if (distinct names).contains name then distinct names else distinct names ++ [name] := by
    rw [distinct, List.foldl_append]
    rfl
  rw [hlast]
  simp only [List.contains_iff_mem]

lemma nodup_distinct (names : List String) : (distinct names).Nodup := by
  induction names using List.reverseRecOn with
  | nil => exact List.nodup_nil
  | append_singleton names name ih =>
    rw [distinct_append_singleton]
    split
    · exact ih
    · rename_i hnew
      exact List.nodup_append.mpr ⟨ih, List.nodup_singleton name, by grind⟩

/-- The first `a` in the list stands before every `b`. -/
def Precedes (names : List String) (a b : String) : Prop :=
  ∃ front rest, names = front ++ a :: rest ∧ b ∉ front ∧ b ≠ a

lemma Precedes.append {names : List String} {a b : String} (h : Precedes names a b)
    (more : List String) : Precedes (names ++ more) a b := by
  obtain ⟨front, rest, rfl, hfront, hne⟩ := h
  exact ⟨front, rest ++ more, by simp, hfront, hne⟩

theorem pairwise_distinct (names : List String) :
    (distinct names).Pairwise (Precedes names) := by
  induction names using List.reverseRecOn with
  | nil => exact List.Pairwise.nil
  | append_singleton names name ih =>
    have hold : (distinct names).Pairwise (Precedes (names ++ [name])) :=
      ih.imp fun h => h.append [name]
    rw [distinct_append_singleton]
    split
    · exact hold
    · rename_i hnew
      rw [mem_distinct] at hnew
      refine List.pairwise_append.mpr ⟨hold, List.pairwise_singleton _ _, fun a ha b hb => ?_⟩
      obtain rfl := List.mem_singleton.mp hb
      obtain ⟨front, rest, rfl⟩ := List.append_of_mem (mem_distinct.mp ha)
      refine ⟨front, rest ++ [b], by simp, fun hfront => hnew ?_, ?_⟩
      · exact List.mem_append_left _ hfront
      · rintro rfl
        exact hnew (by simp)

/-- What is new behind a list is new in itself and does not occur in the list. -/
theorem distinct_append (names more : List String) :
    distinct (names ++ more) =
      distinct names ++ (distinct more).filter fun name => name ∉ distinct names := by
  induction more using List.reverseRecOn with
  | nil => simp [distinct]
  | append_singleton more name ih =>
    rw [← List.append_assoc, distinct_append_singleton, distinct_append_singleton, ih]
    by_cases hnames : name ∈ distinct names
    · by_cases hmore : name ∈ distinct more <;> simp [hnames, hmore]
    · by_cases hmore : name ∈ distinct more <;> simp [hnames, hmore]

/-- Members that are the same before they are renamed are the same afterwards, so it does not matter
whether they are left out at once. -/
theorem distinct_map_distinct (f : String → String) (names : List String) :
    distinct ((distinct names).map f) = distinct (names.map f) := by
  induction names using List.reverseRecOn with
  | nil => rfl
  | append_singleton names name ih =>
    rw [List.map_append, List.map_singleton, distinct_append_singleton, distinct_append_singleton]
    by_cases hknown : name ∈ distinct names
    · have himage : f name ∈ distinct (names.map f) :=
        mem_distinct.mpr (List.mem_map_of_mem (mem_distinct.mp hknown))
      rw [if_pos hknown, if_pos himage, ih]
    · rw [if_neg hknown, List.map_append, List.map_singleton, distinct_append_singleton, ih]

lemma count_map {name : String} {names : List String} {occurrences : String → Nat}
    (hnodup : names.Nodup) (hnew : name ∉ names → occurrences name = 0) :
    count name (names.map fun n => ⟨n, occurrences n⟩) =
      (if name ∈ names then names else names ++ [name]).map fun n =>
        ⟨n, if n = name then occurrences n + 1 else occurrences n⟩ := by
  induction names with
  | nil => simp [count, hnew]
  | cons n names ih =>
    obtain ⟨hn, hnodup⟩ := List.nodup_cons.mp hnodup
    rw [List.map_cons, count]
    by_cases hname : n = name
    · subst hname
      have hothers : names.map (fun m => (⟨m, occurrences m⟩ : ElementCount)) =
          names.map fun m => ⟨m, if m = n then occurrences m + 1 else occurrences m⟩ := by
        refine List.map_congr_left fun m hm => ?_
        have hne : m ≠ n := fun heq => hn (heq ▸ hm)
        rw [if_neg hne]
      simp [hothers]
    · have hmem : name ∈ n :: names ↔ name ∈ names := by simp [Ne.symm hname]
      rw [if_neg hname, ih hnodup fun h => hnew (hmem.not.mpr h)]
      by_cases hknown : name ∈ names <;> simp [hknown, hname, Ne.symm hname]

theorem countNames_eq (names : List String) :
    countNames names = (distinct names).map fun name => ⟨name, names.count name⟩ := by
  induction names using List.reverseRecOn with
  | nil => rfl
  | append_singleton names name ih =>
    have hstep : countNames (names ++ [name]) = count name (countNames names) := by
      rw [countNames, List.foldl_append]
      rfl
    have hnew : name ∉ distinct names → names.count name = 0 := by
      rw [mem_distinct]
      exact List.count_eq_zero_of_not_mem
    rw [hstep, ih, count_map (nodup_distinct names) hnew, distinct_append_singleton]
    refine List.map_congr_left fun n _ => ?_
    by_cases hn : n = name
    · simp [hn]
    · simp [hn, Ne.symm hn]

lemma map_name_countNames (names : List String) :
    (countNames names).map ElementCount.name = distinct names := by
  rw [countNames_eq, List.map_map]
  exact List.map_id _

lemma sum_countNames (names : List String) :
    ((countNames names).map ElementCount.occurrences).sum = names.length := by
  have hperm : (distinct names).Perm names.dedup :=
    (List.perm_ext_iff_of_nodup (nodup_distinct names) (List.nodup_dedup names)).mpr fun name => by
      rw [mem_distinct, List.mem_dedup]
  calc ((countNames names).map ElementCount.occurrences).sum
      = ((distinct names).map fun name => names.count name).sum := by
        rw [countNames_eq, List.map_map]
        rfl
    _ = (names.dedup.map fun name => names.count name).sum := (hperm.map _).sum_eq
    _ = names.length := List.sum_map_count_dedup_eq_length names

lemma count_of_not_mem {name : String} {entries : List ElementCount}
    (h : name ∉ entries.map ElementCount.name) : count name entries = entries ++ [⟨name, 1⟩] := by
  induction entries with
  | nil => rfl
  | cons entry entries ih =>
    rw [List.map_cons, List.mem_cons, not_or] at h
    rw [count, if_neg (Ne.symm h.1), ih h.2]
    rfl

lemma count_of_idxOf? {name : String} {entries : List ElementCount} {place : Nat}
    (h : (entries.map ElementCount.name).idxOf? name = some place) :
    place < entries.length ∧ count name entries = entries.modify place ElementCount.again ∧
      (count name entries).map ElementCount.name = entries.map ElementCount.name := by
  induction entries generalizing place with
  | nil => cases h
  | cons entry entries ih =>
    rw [List.map_cons, List.idxOf?_cons] at h
    rw [count]
    by_cases hname : entry.name = name
    · subst hname
      rw [beq_self_eq_true, if_pos rfl] at h
      obtain rfl := Option.some.inj h
      exact ⟨Nat.succ_pos _, by simp [ElementCount.again], by simp⟩
    · rw [beq_eq_false_iff_ne.mpr hname, if_neg (by decide)] at h
      obtain ⟨before, hbefore, rfl⟩ := Option.map_eq_some_iff.mp h
      obtain ⟨hlt, hcount, hnames⟩ := ih hbefore
      rw [if_neg hname]
      exact ⟨Nat.succ_lt_succ hlt, by rw [hcount, List.modify_succ_cons], by simp [hnames]⟩

lemma idxOf?_append_singleton {names : List String} {name : String} (h : name ∉ names)
    (other : String) : (names ++ [name]).idxOf? other =
      if name == other then some names.length else names.idxOf? other := by
  have happend : (names ++ [name]).idxOf? other =
      (names.idxOf? other).or (([name].idxOf? other).map (· + names.length)) :=
    List.findIdx?_append
  rw [happend, List.idxOf?_singleton]
  by_cases hname : name = other
  · subst hname
    simp [List.idxOf?_eq_none_iff.mpr h]
  · simp [hname]

/-- The tally has these counts, and its index gives the place of every name among them. -/
structure Tally.Agrees (tally : Tally) (entries : List ElementCount) : Prop where
  counts : tally.counts.toList = entries
  index (name : String) : tally.index[name]? = (entries.map ElementCount.name).idxOf? name

lemma Tally.agrees_empty : Tally.empty.Agrees [] := ⟨rfl, fun name => by simp [Tally.empty]⟩

/-- Counting a name stays inside the counts and keeps the index in step with them. -/
lemma Tally.Agrees.add {tally : Tally} {entries : List ElementCount} (h : tally.Agrees entries)
    (name : String) : ∃ next, tally.add name = some next ∧ next.Agrees (count name entries) := by
  have hsize : tally.counts.size = entries.length := by rw [← h.counts, Array.length_toList]
  unfold Tally.add
  rw [h.index]
  cases hplace : (entries.map ElementCount.name).idxOf? name with
  | some place =>
    obtain ⟨hlt, hcount, hnames⟩ := count_of_idxOf? hplace
    refine ⟨_, if_pos (hsize ▸ hlt), ?_, fun other => ?_⟩
    · rw [Array.toList_modify, h.counts, hcount]
    · rw [hnames]
      exact h.index other
  | none =>
    rw [List.idxOf?_eq_none_iff] at hplace
    refine ⟨_, rfl, ?_, fun other => ?_⟩
    · rw [Array.toList_push, h.counts, count_of_not_mem hplace]
    · rw [Std.HashMap.getElem?_insert, h.index, count_of_not_mem hplace, hsize, List.map_append,
        ← List.length_map ElementCount.name]
      exact (idxOf?_append_singleton hplace other).symm

lemma Tally.Agrees.addAll {tally : Tally} {entries : List ElementCount} (h : tally.Agrees entries)
    (names : List String) : ∃ last, tally.addAll names = some last ∧
      last.Agrees (names.foldl (fun entries name => count name entries) entries) := by
  induction names generalizing tally entries with
  | nil => exact ⟨tally, rfl, h⟩
  | cons name names ih =>
    obtain ⟨next, hnext, hagrees⟩ := h.add name
    obtain ⟨last, hlast, hall⟩ := ih hagrees
    refine ⟨last, ?_, hall⟩
    rw [Tally.addAll, List.foldlM_cons, hnext]
    exact hlast

/-- A pass with an index never leaves the counts, and gives those of the elements. -/
lemma tallyCounts?_eq (text : String) : tallyCounts? text = some (elementCounts text) := by
  obtain ⟨last, hlast, hagrees⟩ := Tally.agrees_empty.addAll ((matchAll text).map Match.name)
  rw [tallyCounts?, hlast, Option.map_some, hagrees.counts, elementCounts, ← matchAll_eq_scan]
  rfl

lemma elements_eq_distinct (text : String) :
    elements text = distinct ((matchAll text).map Match.name) := by
  rw [elements, elementCounts, map_name_countNames, matchAll_eq_scan]

lemma pairwise_start_scan (text : String) :
    (scan text).Pairwise fun a b => a.start < b.start := by
  have hscans := scans_scan text
  refine hscans.pairwise.imp_of_mem fun {a b} ha _ hstop => ?_
  exact Nat.lt_of_lt_of_le (hscans.standsIn a ha).start_lt_stop hstop

lemma exists_first_of_precedes {calls : List Match} {label : Match → String} {a b : String}
    (hsorted : calls.Pairwise fun a b => a.start < b.start)
    (h : Precedes (calls.map label) a b) :
    ∃ m ∈ calls, label m = a ∧ ∀ m' ∈ calls, label m' = b → m.start < m'.start := by
  obtain ⟨front, rest, hsplit, hfront, hne⟩ := h
  obtain ⟨before, others, rfl, hbefore, hothers⟩ := List.map_eq_append_iff.mp hsplit
  obtain ⟨m, behind, rfl, rfl, -⟩ := List.map_eq_cons_iff.mp hothers
  refine ⟨m, by simp, rfl, fun m' hm' hname => ?_⟩
  have hbehind : m' ∈ behind := by
    rcases List.mem_append.mp hm' with hm' | hm'
    · exact absurd (hname ▸ hbefore ▸ List.mem_map_of_mem hm') hfront
    · refine (List.mem_cons.mp hm').resolve_left fun heq => hne ?_
      rw [← hname, heq]
  exact List.rel_of_pairwise_cons (List.pairwise_append.mp hsorted).2.1 hbehind

/-- Counting the calls of a text in one pass with an index never looks outside the counts. Each
element is counted once, under the name that its calls are read as, with the number of these calls,
and stands before the elements whose first call comes later; no call goes uncounted, and the
elements of the text are the names that are counted. -/
theorem element_counts_are_exact (text : String) :
    tallyCounts? text = some (elementCounts text) ∧
    elements text = (elementCounts text).map ElementCount.name ∧
    (elements text).Nodup ∧
    (elementCounts text).Pairwise (fun a b => ∃ m ∈ matchAll text, normalize m.text = a.name ∧
      ∀ m' ∈ matchAll text, normalize m'.text = b.name → m.start < m'.start) ∧
    (∀ entry ∈ elementCounts text, 1 ≤ entry.occurrences ∧
      entry.occurrences = (matchAll text).countP fun m => normalize m.text = entry.name) ∧
    ((elementCounts text).map ElementCount.occurrences).sum = (matchAll text).length ∧
    ∀ name, name ∈ elements text ↔ ∃ m ∈ matchAll text, normalize m.text = name := by
  rw [matchAll_eq_scan]
  have hnames : elements text = distinct ((scan text).map Match.name) := map_name_countNames _
  refine ⟨tallyCounts?_eq text, rfl, ?_, ?_, fun entry hentry => ?_, ?_, fun name => mem_elements⟩
  · rw [hnames]
    exact nodup_distinct _
  · rw [elementCounts, countNames_eq, List.pairwise_map]
    exact (pairwise_distinct _).imp fun h => exists_first_of_precedes (pairwise_start_scan text) h
  · rw [elementCounts, countNames_eq] at hentry
    obtain ⟨name, hname, rfl⟩ := List.mem_map.mp hentry
    refine ⟨List.count_pos_iff.mpr (mem_distinct.mp hname), ?_⟩
    rw [List.count_eq_countP, List.countP_map]
    exact List.countP_congr fun m _ => by simp [Match.name]
  · rw [elementCounts, sum_countNames, List.length_map]

end PuzzleGate.Call
