import PuzzleGate.Proofs.Files.Shape

/-!
# The order in which entries are listed

A directory has no order of its own: the system may list its entries in any. Trees that differ only
in such orders have the same nodes at the same places.
-/

namespace PuzzleGate.Files

/-- Two ways to list the same entries: those of the directory, and those of the directories inside,
come in any order. -/
inductive Relisted : List (FileName × Node) → List (FileName × Node) → Prop where
  | nil : Relisted [] []
  | keep (entry : FileName × Node) {rest rest' : List (FileName × Node)}
      (tail : Relisted rest rest') : Relisted (entry :: rest) (entry :: rest')
  | inside (name : FileName) {inner inner' rest rest' : List (FileName × Node)}
      (head : Relisted inner inner') (tail : Relisted rest rest') :
      Relisted ((name, .directory inner) :: rest) ((name, .directory inner') :: rest')
  | swap (first second : FileName × Node) (rest : List (FileName × Node)) :
      Relisted (first :: second :: rest) (second :: first :: rest)
  | trans {entries entries' entries'' : List (FileName × Node)} (first : Relisted entries entries')
      (second : Relisted entries' entries'') : Relisted entries entries''

lemma Relisted.refl (entries : List (FileName × Node)) : Relisted entries entries := by
  induction entries with
  | nil => exact .nil
  | cons entry rest ih => exact .keep entry ih

/-- Trees that differ at most in the order in which their directories are listed. -/
def Node.Relisted : Node → Node → Prop
  | .directory entries, .directory entries' => Files.Relisted entries entries'
  | node, node' => node = node'

lemma Node.Relisted.refl (node : Node) : node.Relisted node := by
  cases node with
  | file content => rfl
  | closed fault => rfl
  | directory entries => exact Files.Relisted.refl entries
  | link target => rfl

lemma Node.Relisted.exists_entries {entries : List (FileName × Node)} {node : Node}
    (h : (Node.directory entries).Relisted node) :
    ∃ entries', node = .directory entries' ∧ Files.Relisted entries entries' := by
  cases node with
  | file content => cases h
  | closed fault => cases h
  | directory entries' => exact ⟨entries', rfl, h⟩
  | link target => cases h

lemma Node.Relisted.trans {a b c : Node} (h : a.Relisted b) (h' : b.Relisted c) :
    a.Relisted c := by
  cases a with
  | file content =>
    cases b <;> cases h
    exact h'
  | closed fault =>
    cases b <;> cases h
    exact h'
  | directory entries =>
    obtain ⟨entries', rfl, hentries⟩ := h.exists_entries
    obtain ⟨entries'', rfl, hentries'⟩ := h'.exists_entries
    exact Files.Relisted.trans hentries hentries'
  | link target =>
    cases b <;> cases h
    exact h'

lemma rel_relisted_refl (found : Option Node) : Option.Rel Node.Relisted found found := by
  cases found with
  | none => exact .none
  | some node => exact .some (Node.Relisted.refl node)

lemma rel_relisted_trans {a b c : Option Node} (h : Option.Rel Node.Relisted a b)
    (h' : Option.Rel Node.Relisted b c) : Option.Rel Node.Relisted a c := by
  cases h with
  | none => exact h'
  | some hnode =>
    cases h' with
    | some hnode' => exact .some (hnode.trans hnode')

lemma exists_of_rel_some {node : Node} {found : Option Node}
    (h : Option.Rel Node.Relisted (some node) found) :
    ∃ node', found = some node' ∧ node.Relisted node' := by
  cases h with
  | some hnode => exact ⟨_, rfl, hnode⟩

lemma Node.Relisted.kind_eq {node node' : Node} (h : node.Relisted node') :
    node.kind = node'.kind := by
  cases node <;> cases node' <;> cases h <;> rfl

namespace Relisted

variable {entries entries' : List (FileName × Node)}

lemma names_perm (h : Relisted entries entries') :
    (entries.map Prod.fst).Perm (entries'.map Prod.fst) := by
  induction h with
  | nil => exact .nil
  | keep entry tail ih => exact ih.cons _
  | inside name head tail ihhead ih => exact ih.cons _
  | swap first second rest => exact .swap _ _ _
  | trans first second ih ih' => exact ih.trans ih'

theorem lookup (h : Relisted entries entries') (hnodup : (entries.map Prod.fst).Nodup)
    (name : FileName) :
    Option.Rel Node.Relisted (entries.lookup name) (entries'.lookup name) := by
  induction h with
  | nil => exact .none
  | keep entry tail ih =>
    obtain ⟨name', node⟩ := entry
    rw [lookup_cons_eq_if, lookup_cons_eq_if]
    split
    · exact .some (Node.Relisted.refl node)
    · exact ih (List.nodup_cons.mp hnodup).2
  | inside name' head tail ihhead ih =>
    rw [lookup_cons_eq_if, lookup_cons_eq_if]
    split
    · exact .some head
    · exact ih (List.nodup_cons.mp hnodup).2
  | swap first second rest =>
    obtain ⟨name', node'⟩ := first
    obtain ⟨name'', node''⟩ := second
    -- the first entry of a name counts, so it matters that these two have different names
    have hne : name' ≠ name'' := by
      simp only [List.map_cons, List.nodup_cons, List.mem_cons, not_or] at hnodup
      exact hnodup.1.1
    have hsame : ((name', node') :: (name'', node'') :: rest).lookup name =
        ((name'', node'') :: (name', node') :: rest).lookup name := by
      simp only [lookup_cons_eq_if]
      by_cases hname : name = name'
      · subst hname
        rw [if_pos rfl, if_neg hne, if_pos rfl]
      · rw [if_neg hname, if_neg hname]
    rw [hsame]
    exact rel_relisted_refl _
  | trans first second ih ih' =>
    exact rel_relisted_trans (ih hnodup) (ih' (first.names_perm.nodup_iff.mp hnodup))

end Relisted

theorem Node.Relisted.at? {root root' : Node} (h : root.Relisted root')
    (hsound : root.isSound = true) (names : List FileName) :
    Option.Rel Node.Relisted (root.at? names) (root'.at? names) := by
  induction names generalizing root root' with
  | nil => exact .some h
  | cons name names ih =>
    cases root with
    | file content =>
      cases root' <;> cases h
      exact .none
    | closed fault =>
      cases root' <;> cases h
      exact .none
    | link target =>
      cases root' <;> cases h
      exact .none
    | directory entries =>
      obtain ⟨entries', rfl, hentries⟩ := h.exists_entries
      have hentry := hentries.lookup (nodup_of_isSound hsound) name
      rw [Node.at?, Node.at?]
      cases hchild : entries.lookup name with
      | none =>
        rw [hchild] at hentry
        generalize entries'.lookup name = found' at *
        cases hentry
        exact .none
      | some child =>
        rw [hchild] at hentry
        obtain ⟨child', hchild', hrel⟩ := exists_of_rel_some hentry
        have hinner := isSound_of_mem (areSound_of_isSound hsound) (mem_of_lookup hchild)
        rw [hchild']
        exact ih hrel hinner.2

theorem Node.Relisted.sameShape {root root' : Node} (h : root.Relisted root')
    (hsound : root.isSound = true) : SameShape root' root := by
  intro names
  have hrel := h.at? hsound names
  generalize root.at? names = found at *
  generalize root'.at? names = found' at *
  cases hrel with
  | none => rfl
  | some hnode => exact congrArg some hnode.kind_eq.symm

end PuzzleGate.Files
