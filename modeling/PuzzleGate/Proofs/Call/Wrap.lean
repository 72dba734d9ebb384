import PuzzleGate.Proofs.Call.Pattern
import PuzzleGate.Proofs.Call.Scan

/-!
# Calls and the names they are written from

Writing a call from a wrapper, a shape and a name, finding it in a text and reading its name back
undo each other. The call that is found stands for its three parts and for nothing else.
-/

namespace PuzzleGate.Call

open Text

/-- A text is scanned in one way. -/
theorem Scans.unique {position : Nat} {s : List Char} {calls calls' : List Match}
    (h : Scans position s calls) (h' : Scans position s calls') : calls = calls' := by
  induction h generalizing calls' with
  | done =>
    generalize hs : ([] : List Char) = s at h'
    cases h' with
    | done => rfl
    | call found => exact absurd hs.symm (by simp [wrapChars_ne_nil])
    | skip => cases hs
  | @call position wrapper shape name rest calls found tail ih =>
    generalize hs : wrapChars wrapper shape name ++ rest = s at h'
    cases h' with
    | done => exact absurd hs (by simp [wrapChars_ne_nil])
    | @call _ wrapper' shape' name' rest' calls' found' tail' =>
      rw [← hs, found] at found'
      simp only [Option.some.injEq, Prod.mk.injEq] at found'
      obtain ⟨rfl, rfl, rfl⟩ := found'
      obtain rfl := List.append_cancel_left hs
      rw [ih tail']
    | skip none =>
      rw [← hs, found] at none
      cases none
  | @skip position c rest calls none tail ih =>
    generalize hs : c :: rest = s at h'
    cases h' with
    | done => cases hs
    | call found =>
      rw [← hs, none] at found
      cases found
    | skip _ tail' =>
      obtain ⟨rfl, rfl⟩ := List.cons.inj hs
      exact ih tail'

lemma scan_eq_of_scans {text : String} {calls : List Match} (h : Scans 0 text.toList calls) :
    scan text = calls :=
  (scans_scan text).unique h

lemma stripOpening_name {name : List Char} (h : IsName name) : stripOpening name = name := by
  have hnone (wrapper : Wrapper) : wrapper.opening.isPrefixOf? name = none := by
    apply isPrefixOf?_eq_none
    intro rest hname
    have hparen : isNameChar '(' = true := h.2 '(' (by simp [hname, opening_eq])
    cases hparen
  rw [stripOpening, hnone, hnone]
  rfl

theorem normalizeChars_name {name : List Char} (h : IsName name) : normalizeChars name = name := by
  rw [normalizeChars, stripOpening_name h]
  exact operandName_operand h .ident

lemma Match.StandsIn.isName {m : Match} {s : List Char} {position : Nat}
    (h : m.StandsIn s position) : IsName m.name.toList :=
  (derives_iff.mp h.derives).1

lemma Match.StandsIn.wrap_name {m : Match} {s : List Char} {position : Nat}
    (h : m.StandsIn s position) : wrap m.wrapper m.shape m.name = m.text := by
  rw [wrap, ← (derives_iff.mp h.derives).2, String.ofList_toList]

lemma normalize_of_isName {name : String} (h : IsName name.toList) : normalize name = name := by
  rw [normalize, normalizeChars_name h, String.ofList_toList]

theorem scan_wrap {name : String} (h : IsName name.toList) (wrapper : Wrapper) (shape : Shape) :
    scan (wrap wrapper shape name) = [⟨0, wrapper, shape, wrap wrapper shape name⟩] := by
  have hfound : frontCall? (wrapChars wrapper shape name.toList ++ []) =
      some (wrapper, shape, name.toList) := by
    rw [List.append_nil]
    exact frontCall?_wrapChars h wrapper shape
  have hscans : Scans 0 (wrapChars wrapper shape name.toList ++ [])
      [⟨0, wrapper, shape, wrap wrapper shape name⟩] := .call hfound (.done _)
  rw [List.append_nil] at hscans
  apply scan_eq_of_scans
  rw [wrap, String.toList_ofList]
  exact hscans

lemma normalize_wrap {name : String} (h : IsName name.toList) (wrapper : Wrapper) (shape : Shape) :
    normalize (wrap wrapper shape name) = name := by
  rw [normalize, wrap, String.toList_ofList, normalizeChars_wrapChars h, String.ofList_toList]

/-- Every call that is found is written from its wrapper, its shape and the name it is read as, and
the name stands for itself. A call written from a name is the only one found in its own text, as
long as the text and with the parts it was written from. -/
theorem calls_are_written_names :
    (∀ text, ∀ m ∈ matchAll text, IsName (normalize m.text).toList ∧
      wrap m.wrapper m.shape (normalize m.text) = m.text ∧
      normalize (normalize m.text) = normalize m.text) ∧
    ∀ (wrapper : Wrapper) (shape : Shape) (name : String), IsName name.toList →
      ∃ m, matchAll (wrap wrapper shape name) = [m] ∧
        m.start = 0 ∧ m.stop = (wrap wrapper shape name).utf8ByteSize ∧
        m.text = wrap wrapper shape name ∧ m.wrapper = wrapper ∧ m.shape = shape ∧
        normalize m.text = name := by
  constructor
  · intro text m hm
    rw [matchAll_eq_scan] at hm
    have hstands := (scans_scan text).standsIn m hm
    have hname : IsName (normalize m.text).toList := hstands.isName
    exact ⟨hname, hstands.wrap_name, normalize_of_isName hname⟩
  · intro wrapper shape name hname
    refine ⟨⟨0, wrapper, shape, wrap wrapper shape name⟩, ?_, rfl, ?_, rfl, rfl, rfl,
      normalize_wrap hname wrapper shape⟩
    · rw [matchAll_eq_scan, scan_wrap hname]
    · rw [Match.stop, Nat.zero_add]

/-- The call of a component that is called like the shorter wrapper is found as a whole. -/
theorem calls_are_written_names_jsx : IsName "_jsx".toList ∧
    ∃ m, matchAll (wrap .multi .ident "_jsx") = [m] ∧ normalize m.text = "_jsx" := by
  have hname : IsName "_jsx".toList := ⟨by decide, List.all_eq_true.mp rfl⟩
  obtain ⟨m, hfound, -, -, -, -, -, hnormal⟩ :=
    calls_are_written_names.2 .multi .ident "_jsx" hname
  exact ⟨hname, m, hfound, hnormal⟩

end PuzzleGate.Call
