import PuzzleGate.Proofs.Call.Front
import PuzzleGate.Proofs.Text.Utf8

/-!
# What a scan finds

`Scans` says step by step what a scan does to a text, and everything known about a scan is proved
along its steps. The spans of the calls found are the leftmost longest ones: each starts at the
first place behind the last one at which a call begins, and ends where the longest call that
begins there ends.
-/

namespace PuzzleGate.Call

open Text

/-- The calls of these characters, whose first one stands at byte `position`. -/
inductive Scans : Nat → List Char → List Match → Prop where
  | done (position : Nat) : Scans position [] []
  | call {position : Nat} {wrapper : Wrapper} {shape : Shape} {name rest : List Char}
      {calls : List Match}
      (found : frontCall? (wrapChars wrapper shape name ++ rest) = some (wrapper, shape, name))
      (tail : Scans (position + byteSize (wrapChars wrapper shape name)) rest calls) :
      Scans position (wrapChars wrapper shape name ++ rest)
        (⟨position, wrapper, shape, .ofList (wrapChars wrapper shape name)⟩ :: calls)
  | skip {position : Nat} {c : Char} {rest : List Char} {calls : List Match}
      (none : frontCall? (c :: rest) = none) (tail : Scans (position + c.utf8Size) rest calls) :
      Scans position (c :: rest) calls

lemma scanFrom_skip (front rest : List Char) (position : Nat) :
    scanFrom front.length position (front ++ rest) =
      scanFrom 0 (position + byteSize front) rest := by
  induction front generalizing position with
  | nil => rfl
  | cons c front ih =>
    rw [List.length_cons, List.cons_append, scanFrom, ih, byteSize_cons, Nat.add_assoc]

lemma wrapChars_ne_nil (wrapper : Wrapper) (shape : Shape) (name : List Char) :
    wrapChars wrapper shape name ≠ [] := by
  cases wrapper <;> simp [wrapChars, multi_opening, single_opening]

theorem scans_scanFrom (s : List Char) (position : Nat) :
    Scans position s (scanFrom 0 position s) := by
  -- a call takes several characters at once, so the induction is on the length
  induction hn : s.length using Nat.strong_induction_on generalizing s position with
  | _ n ih =>
    cases s with
    | nil => exact .done position
    | cons c s =>
      cases hfront : frontCall? (c :: s) with
      | none =>
        rw [scanFrom, hfront]
        refine .skip hfront (ih s.length ?_ s _ rfl)
        simp at hn
        omega
      | some parts =>
        obtain ⟨wrapper, shape, name⟩ := parts
        obtain ⟨-, rest, hs, -⟩ := frontCall?_sound hfront
        obtain ⟨d, tail, hcall⟩ := List.exists_cons_of_ne_nil (wrapChars_ne_nil wrapper shape name)
        have hcons : c :: s = d :: (tail ++ rest) := by rw [hs, hcall, List.cons_append]
        obtain ⟨rfl, rfl⟩ := List.cons.inj hcons
        have hskip : scanFrom 0 position (c :: (tail ++ rest)) =
            ⟨position, wrapper, shape, .ofList (wrapChars wrapper shape name)⟩ ::
              scanFrom 0 (position + byteSize (wrapChars wrapper shape name)) rest := by
          rw [scanFrom, hfront]
          simp only [hcall, List.length_cons, Nat.add_sub_cancel, scanFrom_skip, byteSize_cons,
            Nat.add_assoc]
        rw [hskip, hs]
        rw [hs] at hfront
        refine .call hfront (ih rest.length ?_ rest _ rfl)
        simp at hn
        omega

theorem scans_scan (text : String) : Scans 0 text.toList (scan text) :=
  scans_scanFrom text.toList 0

/-- The bytes from the start of a call to its end. -/
def Match.span (m : Match) : Nat × Nat := (m.start, m.stop)

/-- A call stands in the text where it says it does and is the one that is found there. -/
def Match.StandsIn (m : Match) (s : List Char) (position : Nat) : Prop :=
  ∃ name front rest, s = front ++ (wrapChars m.wrapper m.shape name ++ rest) ∧
    m.text = .ofList (wrapChars m.wrapper m.shape name) ∧ m.start = position + byteSize front ∧
    frontCall? (wrapChars m.wrapper m.shape name ++ rest) = some (m.wrapper, m.shape, name)

lemma Match.StandsIn.behind {m : Match} {s : List Char} {position : Nat} (front : List Char)
    (h : m.StandsIn s (position + byteSize front)) : m.StandsIn (front ++ s) position := by
  obtain ⟨name, before, rest, rfl, htext, hstart, hfound⟩ := h
  refine ⟨name, front ++ before, rest, by simp, htext, ?_, hfound⟩
  rw [hstart, byteSize_append, Nat.add_assoc]

theorem Scans.standsIn {position : Nat} {s : List Char} {calls : List Match}
    (h : Scans position s calls) : ∀ m ∈ calls, m.StandsIn s position := by
  induction h with
  | done => simp
  | @call position wrapper shape name rest calls found tail ih =>
    intro m hm
    rcases List.mem_cons.mp hm with rfl | hm
    · exact ⟨name, [], rest, rfl, rfl, rfl, found⟩
    · exact (ih m hm).behind _
  | @skip position c rest calls none tail ih =>
    intro m hm
    exact Match.StandsIn.behind [c] (by simpa using ih m hm)

lemma Match.stop_eq (m : Match) : m.stop = m.start + byteSize m.text.toList := by
  rw [Match.stop, utf8ByteSize_eq]

lemma Match.StandsIn.start_lt_stop {m : Match} {s : List Char} {position : Nat}
    (h : m.StandsIn s position) : m.start < m.stop := by
  obtain ⟨name, front, rest, hs, htext, hstart, hfound⟩ := h
  have hne : byteSize m.text.toList ≠ 0 := by
    rw [htext, String.toList_ofList]
    exact fun hzero => wrapChars_ne_nil _ _ _ (byteSize_eq_zero hzero)
  rw [m.stop_eq]
  omega

lemma Match.StandsIn.position_le {m : Match} {s : List Char} {position : Nat}
    (h : m.StandsIn s position) : position ≤ m.start := by
  obtain ⟨name, front, rest, hs, htext, hstart, hfound⟩ := h
  omega

lemma Match.StandsIn.derives {m : Match} {s : List Char} {position : Nat}
    (h : m.StandsIn s position) : Derives m.wrapper m.shape m.name.toList m.text.toList := by
  obtain ⟨name, front, rest, hs, htext, hstart, hfound⟩ := h
  have hname := (frontCall?_sound hfound).1
  rw [Match.name, htext, normalize, String.toList_ofList, String.toList_ofList,
    normalizeChars_wrapChars hname]
  exact derives_iff.mpr ⟨hname, rfl⟩

theorem Scans.pairwise {position : Nat} {s : List Char} {calls : List Match}
    (h : Scans position s calls) : calls.Pairwise fun a b => a.stop ≤ b.start := by
  induction h with
  | done => exact .nil
  | @call position wrapper shape name rest calls found tail ih =>
    refine List.pairwise_cons.mpr ⟨fun m hm => ?_, ih⟩
    have hle := (tail.standsIn m hm).position_le
    simpa [Match.stop_eq] using hle
  | skip none tail ih => exact ih

/-! ### Leftmost longest spans -/

/-- The spans that are left when, from a place on, the leftmost longest span of `D` is taken again
and again, each time behind the last one. -/
inductive LeftmostLongest (D : Nat → Nat → Prop) : Nat → List (Nat × Nat) → Prop where
  | done {place : Nat} (none : ∀ start stop, place ≤ start → ¬ D start stop) :
      LeftmostLongest D place []
  | next {place start stop : Nat} {spans : List (Nat × Nat)} (behind : place ≤ start)
      (span : D start stop) (leftmost : ∀ other end', place ≤ other → D other end' → start ≤ other)
      (longest : ∀ other, D start other → other ≤ stop) (tail : LeftmostLongest D stop spans) :
      LeftmostLongest D place ((start, stop) :: spans)

/-- There is only one way to take leftmost longest spans. -/
theorem LeftmostLongest.unique {D : Nat → Nat → Prop} {place : Nat}
    {spans spans' : List (Nat × Nat)} (h : LeftmostLongest D place spans)
    (h' : LeftmostLongest D place spans') : spans = spans' := by
  induction h generalizing spans' with
  | done none =>
    cases h' with
    | done => rfl
    | next behind span => exact absurd span (none _ _ behind)
  | next behind span leftmost longest tail ih =>
    cases h' with
    | done none => exact absurd span (none _ _ behind)
    | next behind' span' leftmost' longest' tail' =>
      obtain rfl := Nat.le_antisymm (leftmost _ _ behind' span') (leftmost' _ _ behind span)
      obtain rfl := Nat.le_antisymm (longest' _ span) (longest _ span')
      rw [ih tail']

lemma LeftmostLongest.of_skip {D : Nat → Nat → Prop} {place place' : Nat}
    {spans : List (Nat × Nat)} (hle : place ≤ place')
    (hnone : ∀ start stop, place ≤ start → D start stop → place' ≤ start)
    (h : LeftmostLongest D place' spans) : LeftmostLongest D place spans := by
  cases h with
  | done none =>
    refine .done fun start stop hplace hspan => ?_
    exact none start stop (hnone start stop hplace hspan) hspan
  | next behind span leftmost longest tail =>
    exact .next (hle.trans behind) span
      (fun other end' hplace hspan => leftmost other end' (hnone other end' hplace hspan) hspan)
      longest tail

lemma callAt_iff {text : String} {start stop : Nat} :
    CallAt text start stop ↔ ∃ front call rest, text.toList = front ++ (call ++ rest) ∧
      IsCall call ∧ start = byteSize front ∧ stop = start + byteSize call := by
  constructor
  · rintro ⟨front, call, rest, rfl, hcall, hstart, hstop⟩
    refine ⟨front.toList, call.toList, rest.toList, by simp, hcall, ?_, ?_⟩
    · rw [hstart, utf8ByteSize_eq]
    · rw [hstop, utf8ByteSize_eq]
  · rintro ⟨front, call, rest, htext, hcall, hstart, hstop⟩
    refine ⟨.ofList front, .ofList call, .ofList rest, ?_, by simpa using hcall, ?_, ?_⟩
    · rw [← String.toList_inj]
      simp [htext]
    · rw [hstart, utf8ByteSize_ofList]
    · rw [hstop, utf8ByteSize_ofList]

lemma exists_call_of_callAt {text : String} {front rest : List Char} {start stop : Nat}
    (htext : text.toList = front ++ rest) (h : CallAt text start stop)
    (hle : byteSize front ≤ start) :
    ∃ mid call tail, rest = mid ++ (call ++ tail) ∧ IsCall call ∧
      start = byteSize front + byteSize mid ∧ stop = start + byteSize call := by
  obtain ⟨before, call, tail, hsplit, hcall, rfl, rfl⟩ := callAt_iff.mp h
  rw [htext] at hsplit
  obtain ⟨mid, rfl, hrest⟩ := exists_append_of_byteSize_le hsplit hle
  exact ⟨mid, call, tail, hrest, hcall, byteSize_append _ _, rfl⟩

lemma byteSize_le_of_found {s call rest : List Char} {wrapper : Wrapper} {shape : Shape}
    {name : List Char} (hfound : frontCall? s = some (wrapper, shape, name))
    (hs : s = call ++ rest) (hcall : IsCall call) :
    byteSize call ≤ byteSize (wrapChars wrapper shape name) := by
  obtain ⟨wrapper', shape', name', hfound', hlength⟩ := frontCall?_complete hcall rest
  rw [← hs, hfound] at hfound'
  simp only [Option.some.injEq, Prod.mk.injEq] at hfound'
  obtain ⟨rfl, rfl, rfl⟩ := hfound'
  obtain ⟨-, rest', hs', -⟩ := frontCall?_sound hfound
  have hprefix : call <+: wrapChars wrapper shape name :=
    List.prefix_of_prefix_length_le ⟨rest, hs.symm⟩ ⟨rest', hs'.symm⟩ hlength
  obtain ⟨more, hmore⟩ := hprefix
  rw [← hmore, byteSize_append]
  omega

theorem Scans.leftmostLongest {text : String} {front rest : List Char} {calls : List Match}
    (h : Scans (byteSize front) rest calls) (htext : text.toList = front ++ rest) :
    LeftmostLongest (CallAt text) (byteSize front) (calls.map Match.span) := by
  generalize hposition : byteSize front = position at h
  induction h generalizing front with
  | done =>
    refine .done fun start stop hle hcall => ?_
    obtain ⟨mid, call, tail, hnil, ⟨wrapper, shape, name, hderives⟩, -⟩ :=
      exists_call_of_callAt htext hcall (hposition ▸ hle)
    obtain ⟨-, rfl⟩ := derives_iff.mp hderives
    simp [wrapChars_ne_nil] at hnil
  | @call position wrapper shape name rest calls found tail ih =>
    subst hposition
    have hname := (frontCall?_sound found).1
    have htail := @ih (front ++ wrapChars wrapper shape name)
      (by rw [htext, List.append_assoc]) (byteSize_append _ _)
    refine .next le_rfl ?_ (fun _ _ hle _ => hle) ?_ (by simpa [Match.stop_eq] using htail)
    · exact callAt_iff.mpr ⟨front, _, rest, htext, isCall_wrapChars hname wrapper shape, rfl,
        by simp [Match.stop_eq]⟩
    · intro other hother
      obtain ⟨mid, call, tail', hrest, hcall, hstart, rfl⟩ :=
        exists_call_of_callAt htext hother le_rfl
      have hmid : byteSize mid = 0 := by
        change byteSize front = byteSize front + byteSize mid at hstart
        omega
      rw [byteSize_eq_zero hmid, List.nil_append] at hrest
      have hle := byteSize_le_of_found found hrest hcall
      simpa [Match.stop_eq] using hle
  | @skip position c rest calls none tail ih =>
    subst hposition
    have htail := @ih (front ++ [c]) (by simp [htext]) (by simp)
    refine htail.of_skip (by omega) fun start stop hle hcall => ?_
    obtain ⟨mid, call, tail', hrest, hfront, rfl, -⟩ := exists_call_of_callAt htext hcall hle
    cases mid with
    | nil => exact absurd ⟨call, tail', hrest, hfront⟩ (frontCall?_eq_none_iff.mp none)
    | cons d mid =>
      obtain rfl := (List.cons.inj hrest).1
      rw [byteSize_cons]
      omega

/-- The spans of the calls found are the leftmost longest ones. -/
theorem leftmostLongest_scan (text : String) :
    LeftmostLongest (CallAt text) 0 ((scan text).map Match.span) := by
  have h : Scans (byteSize []) text.toList (scan text) := scans_scan text
  exact h.leftmostLongest rfl

end PuzzleGate.Call
