import Mathlib.Data.List.Nodup

/-!
# Looking up a key

In a list of keys with values the first value of a key counts. Where no key is given twice, this is
the value that the key stands with.
-/

namespace PuzzleGate

variable {κ α : Type} [BEq κ] [LawfulBEq κ] {entries : List (κ × α)} {key : κ} {value : α}

lemma lookup_cons_eq_if [DecidableEq κ] (key other : κ) (value : α) (entries : List (κ × α)) :
    ((key, value) :: entries).lookup other =
      if other = key then some value else entries.lookup other := by
  rw [List.lookup_cons]
  by_cases hother : other = key
  · simp [hother]
  · rw [beq_eq_false_iff_ne.mpr hother, if_neg hother]

lemma lookup_eq_none_of_not_mem (h : key ∉ entries.map Prod.fst) : entries.lookup key = none := by
  rw [List.lookup_eq_none_iff]
  intro entry hentry
  have hne : key ≠ entry.1 := fun heq => h (heq ▸ List.mem_map_of_mem hentry)
  simpa using hne

lemma lookup_of_mem (h : (entries.map Prod.fst).Nodup) (hmem : (key, value) ∈ entries) :
    entries.lookup key = some value := by
  induction entries with
  | nil => cases hmem
  | cons entry entries ih =>
    obtain ⟨key', value'⟩ := entry
    rw [List.map_cons, List.nodup_cons] at h
    rcases List.mem_cons.mp hmem with heq | htail
    · obtain ⟨rfl, rfl⟩ := Prod.mk.inj heq
      simp
    · have hne : key ≠ key' := by
        rintro rfl
        exact h.1 (List.mem_map.mpr ⟨(key, value), htail, rfl⟩)
      rw [List.lookup_cons, beq_eq_false_iff_ne.mpr hne]
      exact ih h.2 htail

lemma mem_of_lookup (h : entries.lookup key = some value) : (key, value) ∈ entries := by
  obtain ⟨before, after, rfl, -⟩ := List.lookup_eq_some_iff.mp h
  simp

lemma filter_key_eq (h : (entries.map Prod.fst).Nodup) (hlookup : entries.lookup key = some value) :
    entries.filter (fun entry => entry.1 == key) = [(key, value)] := by
  obtain ⟨before, after, rfl, hbefore⟩ := List.lookup_eq_some_iff.mp hlookup
  rw [List.map_append, List.map_cons, List.nodup_append, List.nodup_cons] at h
  have hfront : ∀ entry ∈ before, ¬ (entry.1 == key) = true := by
    intro entry hentry heq
    simpa [eq_of_beq heq] using hbefore entry hentry
  have hback : ∀ entry ∈ after, ¬ (entry.1 == key) = true := by
    intro entry hentry heq
    exact h.2.1.1 (List.mem_map.mpr ⟨entry, hentry, eq_of_beq heq⟩)
  rw [List.filter_append, List.filter_eq_nil_iff.mpr hfront, List.filter_cons,
    List.filter_eq_nil_iff.mpr hback]
  simp

end PuzzleGate
