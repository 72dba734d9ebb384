import PuzzleGate.Proofs.Call.Pattern
import PuzzleGate.Proofs.Call.Scan

/-!
# The scan implements the grammar

The grammar says which texts are calls, the regular expression how they are looked for, and the
scan which are found. All three agree on every text.
-/

namespace PuzzleGate.Call

open Text

lemma Match.StandsIn.shape_eq_member {m : Match} {s : List Char} {position : Nat}
    (h : m.StandsIn s position) {front rest : List Char} {c : Char}
    (hs : s = front ++ (m.wrapper.opening ++ (components ++ c :: rest)))
    (hstart : m.start = position + byteSize front) (hc : isNameChar c = true) :
    m.shape = .member := by
  obtain ⟨name, before, tail, hsplit, htext, hplace, hfound⟩ := h
  rw [hs] at hsplit
  obtain ⟨rfl, hrest⟩ := append_inj_of_byteSize_eq hsplit (by omega)
  have hname : IsName [c] := ⟨by simp, by simpa using hc⟩
  have hfront := frontOperand?_member (frontName?_complete hname rest)
  rw [← hrest, frontCall?_opening, ← List.singleton_append, hfront] at hfound
  simp only [Option.map_some, Option.some.injEq, Prod.mk.injEq] at hfound
  exact hfound.2.1.symm

/-- The calls that the regular expression finds are those of the grammar: their spans are the
leftmost longest ones and the only such list, each call stands in the text between whole
characters and has the parts of its only derivation, a member is never taken for an identifier,
and no two calls overlap. -/
theorem matchAll_implements_grammar (text : String) :
    matchAll text = scan text ∧
    LeftmostLongest (CallAt text) 0 ((scan text).map Match.span) ∧
    (∀ spans, LeftmostLongest (CallAt text) 0 spans → spans = (scan text).map Match.span) ∧
    (∀ m ∈ scan text,
      (∃ front rest : String, text = front ++ m.text ++ rest ∧ m.start = front.utf8ByteSize ∧
        m.stop = (front ++ m.text).utf8ByteSize) ∧
      Derives m.wrapper m.shape m.name.toList m.text.toList ∧
      (∀ wrapper shape name, Derives wrapper shape name m.text.toList →
        wrapper = m.wrapper ∧ shape = m.shape ∧ name = m.name.toList) ∧
      ∀ (front rest : String) (c : Char), isNameChar c = true → m.start = front.utf8ByteSize →
        text.toList = front.toList ++ (m.wrapper.opening ++ (components ++ c :: rest.toList)) →
        m.shape = .member) ∧
    (scan text).Pairwise (fun a b => a.stop ≤ b.start) ∧ ∀ m ∈ scan text, m.start < m.stop := by
  have hspans := leftmostLongest_scan text
  have hstands := (scans_scan text).standsIn
  refine ⟨matchAll_eq_scan text, hspans, fun spans h => h.unique hspans, fun m hm => ?_,
    (scans_scan text).pairwise, fun m hm => (hstands m hm).start_lt_stop⟩
  refine ⟨?_, (hstands m hm).derives, fun wrapper shape name h => h.unique (hstands m hm).derives,
    fun front rest c hc hstart htext => ?_⟩
  · obtain ⟨name, front, rest, hs, htext, hstart, hfound⟩ := hstands m hm
    have hfront : m.start = (String.ofList front).utf8ByteSize := by
      rw [hstart, utf8ByteSize_ofList, Nat.zero_add]
    refine ⟨.ofList front, .ofList rest, ?_, hfront, ?_⟩
    · rw [← String.toList_inj]
      simp [hs, htext]
    · rw [Match.stop, String.utf8ByteSize_append, hfront]
  · refine (hstands m hm).shape_eq_member htext ?_ hc
    rw [hstart, utf8ByteSize_eq, Nat.zero_add]

end PuzzleGate.Call
