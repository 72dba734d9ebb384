import PuzzleGate.Proofs.Call.Pattern
import PuzzleGate.Proofs.Call.Scan

/-!
# Calls that overlap a call already found

A scan goes on behind the call it has found, so a call that begins inside of it is passed over.
That happens in one way only: an unquoted name ends in the name of a wrapper, and the parenthesis
right behind it opens the call that is passed over. A list that allows no such name therefore
loses nothing.
-/

namespace PuzzleGate.Call

open Text

lemma append_eq_append_cases {α : Type} {a b c d : List α} (h : a ++ b = c ++ d) :
    (∃ mid, c = a ++ mid ∧ b = mid ++ d) ∨ ∃ mid, mid ≠ [] ∧ a = c ++ mid ∧ d = mid ++ b := by
  rcases List.append_eq_append_iff.mp h with hbehind | ⟨mid, ha, hd⟩
  · exact .inl hbehind
  · by_cases hmid : mid = []
    · subst hmid
      exact .inl ⟨[], by simp [ha], by simp [hd]⟩
    · exact .inr ⟨mid, hmid, ha, hd⟩

lemma wrapChars_eq (wrapper : Wrapper) (shape : Shape) (name : List Char) :
    wrapChars wrapper shape name = wrapper.called ++ '(' :: shape.operand name := by
  rw [wrapChars, opening_eq, List.append_assoc, List.singleton_append]

lemma Wrapper.isNameChar_called (wrapper : Wrapper) :
    ∀ c ∈ wrapper.called, isNameChar c = true := by
  have hall : wrapper.called.all isNameChar = true := by cases wrapper <;> rfl
  exact List.all_eq_true.mp hall

/-- What stands in an operand before the name. -/
def Shape.mark : Shape → List Char
  | .member => components
  | .literal => ['"']
  | .ident => []

lemma operand_eq_mark_append {shape : Shape} (hshape : shape ≠ .literal) (name : List Char) :
    shape.operand name = shape.mark ++ name := by
  cases shape with
  | member => rfl
  | literal => exact absurd rfl hshape
  | ident => rfl

lemma append_cons_inj {a b s t : List Char} {x y : Char} (ha : ∀ c ∈ a, isNameChar c = true)
    (hb : ∀ c ∈ b, isNameChar c = true) (hx : isNameChar x = false) (hy : isNameChar y = false)
    (h : a ++ x :: s = b ++ y :: t) : a = b ∧ x = y ∧ s = t := by
  have hab : a = b := by
    rw [← takeWhile_of_endsName ha (endsName_cons hx s), h,
      takeWhile_of_endsName hb (endsName_cons hy t)]
  subst hab
  obtain ⟨rfl, rfl⟩ := List.cons.inj (List.append_cancel_left h)
  exact ⟨rfl, rfl, rfl⟩

lemma isNameChar_paren : isNameChar '(' = false := by decide

lemma called_not_suffix (wrapper inner : Wrapper) : ¬ inner.called <:+ wrapper.called.tail := by
  cases wrapper <;> cases inner <;> decide

lemma name_eq_called {mid rest more : List Char} {inner : Wrapper}
    (hmid : ∀ c ∈ mid, isNameChar c = true) (hrest : EndsName rest)
    (h : mid ++ rest = inner.called ++ '(' :: more) : mid = inner.called ∧ rest = '(' :: more := by
  cases rest with
  | nil =>
    have hparen : '(' ∈ mid := by
      rw [List.append_nil] at h
      simp [h]
    have hchar := hmid '(' hparen
    rw [isNameChar_paren] at hchar
    cases hchar
  | cons c rest =>
    obtain ⟨hmid, rfl, rfl⟩ :=
      append_cons_inj hmid inner.isNameChar_called (hrest c rfl) isNameChar_paren h
    exact ⟨hmid, rfl⟩

lemma stop_not_called {mid rest more : List Char} {stop : Char} {inner : Wrapper}
    (hmid : ∀ c ∈ mid, isNameChar c = true) (hstop : isNameChar stop = false) (hne : stop ≠ '(')
    (h : mid ++ stop :: rest = inner.called ++ '(' :: more) : False := by
  obtain ⟨-, hparen, -⟩ := append_cons_inj hmid inner.isNameChar_called hstop isNameChar_paren h
  exact hne hparen

lemma mark_eq_concat {shape : Shape} (h : shape.mark ≠ []) : ∃ letters stop,
    shape.mark = letters ++ [stop] ∧ (∀ c ∈ letters, isNameChar c = true) ∧
      isNameChar stop = false ∧ stop ≠ '(' := by
  cases shape with
  | member => exact ⟨_, '.', components_eq, List.all_eq_true.mp rfl, by decide, by decide⟩
  | literal => exact ⟨[], '"', rfl, by simp, isNameChar_quote, by decide⟩
  | ident => exact absurd rfl h

lemma mark_not_called {shape : Shape} {front mid rest more : List Char} {inner : Wrapper}
    (hmark : shape.mark = front ++ mid) (hmid : mid ≠ [])
    (h : mid ++ rest = inner.called ++ '(' :: more) : False := by
  obtain ⟨letters, stop, hconcat, hletters, hstop, hne⟩ : ∃ letters stop,
      shape.mark = letters ++ [stop] ∧ (∀ c ∈ letters, isNameChar c = true) ∧
        isNameChar stop = false ∧ stop ≠ '(' :=
    mark_eq_concat (by simp [hmark, hmid])
  obtain ⟨last, c, rfl⟩ := (List.eq_nil_or_concat' mid).resolve_left hmid
  rw [hconcat, ← List.append_assoc] at hmark
  obtain ⟨rfl, hc⟩ := List.append_inj' hmark rfl
  obtain rfl := List.singleton_inj.mp hc
  rw [List.append_assoc] at h
  exact stop_not_called (fun d hd => hletters d (List.mem_append_right _ hd)) hstop hne h

lemma name_overlap {inner : Wrapper} {before mid rest more name : List Char}
    (hname : IsName name) (hrest : EndsName rest) (hsplit : name = before ++ mid)
    (h : mid ++ rest = inner.called ++ '(' :: more) : mid = inner.called :=
  (name_eq_called (fun c hc => hname.2 c (by simp [hsplit, hc])) hrest h).1

lemma operand_overlap {inner : Wrapper} {shape : Shape} {name front mid rest more : List Char}
    (hname : IsName name) (hrest : shape ≠ .literal → EndsName rest)
    (hsplit : shape.operand name = front ++ mid) (hmid : mid ≠ [])
    (h : mid ++ rest = inner.called ++ '(' :: more) :
    shape ≠ .literal ∧ mid = inner.called ∧
      ∃ before, name = before ++ inner.called ∧ front = shape.mark ++ before := by
  by_cases hshape : shape = .literal
  · exfalso
    subst hshape
    obtain ⟨last, c, rfl⟩ := (List.eq_nil_or_concat' mid).resolve_left hmid
    rw [Shape.operand, ← List.append_assoc] at hsplit
    obtain ⟨hlast, hc⟩ := List.append_inj' hsplit rfl
    obtain rfl := List.singleton_inj.mp hc
    rw [List.append_assoc] at h
    cases front with
    | nil =>
      obtain rfl : last = '"' :: name := hlast.symm
      have hnil : ∀ c ∈ ([] : List Char), isNameChar c = true := by simp
      exact stop_not_called hnil isNameChar_quote (by decide) h
    | cons d front =>
      obtain ⟨-, rfl⟩ := List.cons.inj hlast
      have hchars : ∀ c ∈ last, isNameChar c = true :=
        fun c hc => hname.2 c (List.mem_append_right _ hc)
      exact stop_not_called hchars isNameChar_quote (by decide) h
  · have hend := hrest hshape
    rw [operand_eq_mark_append hshape] at hsplit
    rcases append_eq_append_cases hsplit with ⟨before, rfl, hbefore⟩ | ⟨last, hlast, hmark, rfl⟩
    · have hcalled := name_overlap hname hend hbefore h
      exact ⟨hshape, hcalled, before, by rw [hbefore, hcalled], rfl⟩
    · rw [List.append_assoc] at h
      exact (mark_not_called hmark hlast h).elim

/-- A call that begins inside of the call that is found begins in a name that is not quoted, and
the name ends with the called function of the inner call. -/
theorem overlap {wrapper inner : Wrapper} {shape : Shape} {name front mid rest more : List Char}
    (hname : IsName name) (hrest : shape ≠ .literal → EndsName rest)
    (hsplit : wrapChars wrapper shape name = front ++ mid) (hfront : front ≠ []) (hmid : mid ≠ [])
    (h : mid ++ rest = inner.called ++ '(' :: more) :
    shape ≠ .literal ∧ mid = inner.called ∧
      ∃ before, name = before ++ inner.called ∧
        front = wrapper.opening ++ (shape.mark ++ before) := by
  rcases append_eq_append_cases hsplit with ⟨before, rfl, hbefore⟩ | ⟨last, hlast, hopening, rfl⟩
  · obtain ⟨hshape, hcalled, before', hname', rfl⟩ := operand_overlap hname hrest hbefore hmid h
    exact ⟨hshape, hcalled, before', hname', rfl⟩
  · -- a wrapper's own name does not end in the name of a shorter one
    obtain ⟨letters, c, rfl⟩ := (List.eq_nil_or_concat' last).resolve_left hlast
    rw [opening_eq, ← List.append_assoc] at hopening
    obtain ⟨hcalled, hc⟩ := List.append_inj' hopening rfl
    obtain rfl := List.singleton_inj.mp hc
    have hletters : ∀ c ∈ letters, isNameChar c = true := by
      intro c hc
      refine wrapper.isNameChar_called c ?_
      rw [hcalled]
      exact List.mem_append_right _ hc
    simp only [List.append_assoc, List.singleton_append] at h
    obtain ⟨rfl, -, -⟩ :=
      append_cons_inj hletters inner.isNameChar_called isNameChar_paren isNameChar_paren h
    obtain ⟨d, front, rfl⟩ := List.exists_cons_of_ne_nil hfront
    exact absurd ⟨front, by rw [hcalled]; rfl⟩ (called_not_suffix wrapper inner)

/-! ### The calls that a scan passes over -/

/-- The byte at which the name in a call begins. -/
def Match.nameStart (m : Match) : Nat :=
  m.start + byteSize (m.wrapper.opening ++ m.shape.mark)

/-- The byte behind the name in a call. -/
def Match.nameStop (m : Match) : Nat := m.nameStart + m.name.utf8ByteSize

/-- The call `m` hides a call that begins at byte `place`: the place lies in the name of `m`, which
ends with the function that the inner call calls, and `m` ends at the inner parenthesis. -/
structure Match.Hides (m : Match) (place : Nat) (call : String) : Prop where
  shape : m.shape = .member ∨ m.shape = .ident
  nameStart_le : m.nameStart ≤ place
  lt_nameStop : place < m.nameStop
  called : ∃ called operand : String, (called = "_jsx" ∨ called = "_jsxs") ∧
    call = called ++ "(" ++ operand ∧ called.toList <:+ m.name.toList ∧
    m.stop = place + called.utf8ByteSize ∧ (place = m.nameStart ↔ m.name = called)

lemma Match.Hides.start_le {m : Match} {place : Nat} {call : String} (h : m.Hides place call) :
    m.start ≤ place := by
  have hle := h.nameStart_le
  rw [Match.nameStart] at hle
  omega

lemma Match.Hides.lt_stop {m : Match} {place : Nat} {call : String} (h : m.Hides place call) :
    place < m.stop := by
  obtain ⟨called, operand, hcalled, -, -, hstop, -⟩ := h.called
  rw [hstop]
  rcases hcalled with rfl | rfl
  · have hsize : "_jsx".utf8ByteSize = 4 := rfl
    omega
  · have hsize : "_jsxs".utf8ByteSize = 5 := rfl
    omega

lemma Match.Hides.exists_suffix {m : Match} {place : Nat} {call : String}
    (h : m.Hides place call) : ∃ wrapper : Wrapper, wrapper.called <:+ m.name.toList := by
  obtain ⟨called, operand, hcalled, -, hsuffix, -⟩ := h.called
  rcases hcalled with rfl | rfl
  · exact ⟨.single, hsuffix⟩
  · exact ⟨.multi, hsuffix⟩

lemma ofList_called (wrapper : Wrapper) :
    String.ofList wrapper.called = "_jsx" ∨ String.ofList wrapper.called = "_jsxs" := by
  cases wrapper with
  | multi => exact .inr rfl
  | single => exact .inl rfl

lemma byteSize_called_pos (wrapper : Wrapper) : 0 < byteSize wrapper.called := by
  cases wrapper <;> decide

lemma hides_of_overlap {position : Nat} {wrapper inner : Wrapper} {shape : Shape}
    {name before operand : List Char} (hname : IsName name) (hshape : shape ≠ .literal)
    (hcalled : name = before ++ inner.called) :
    Match.Hides ⟨position, wrapper, shape, .ofList (wrapChars wrapper shape name)⟩
      (position + byteSize (wrapper.opening ++ (shape.mark ++ before)))
      (.ofList (inner.called ++ '(' :: operand)) := by
  have hmatch : Match.name ⟨position, wrapper, shape, .ofList (wrapChars wrapper shape name)⟩ =
      .ofList name := by
    rw [Match.name, normalize, String.toList_ofList, normalizeChars_wrapChars hname]
  have hpos := byteSize_called_pos inner
  have hbytes : byteSize name = byteSize before + byteSize inner.called := by
    rw [hcalled, byteSize_append]
  refine ⟨?_, ?_, ?_, .ofList inner.called, .ofList operand, ofList_called inner, ?_, ?_, ?_, ?_⟩
  · cases shape with
    | member => exact .inl rfl
    | literal => exact absurd rfl hshape
    | ident => exact .inr rfl
  · simp only [Match.nameStart, byteSize_append]
    omega
  · simp only [Match.nameStop, Match.nameStart, hmatch, utf8ByteSize_ofList, byteSize_append]
    omega
  · rw [← String.toList_inj]
    simp
  · rw [hmatch, String.toList_ofList, String.toList_ofList, hcalled]
    exact List.suffix_append before inner.called
  · rw [Match.stop_eq, String.toList_ofList, wrapChars, operand_eq_mark_append hshape]
    simp only [byteSize_append, utf8ByteSize_ofList]
    omega
  · rw [hmatch, String.ofList_inj]
    simp only [Match.nameStart, byteSize_append]
    constructor
    · intro hplace
      have hnil := byteSize_eq_zero (s := before) (by omega)
      rw [hcalled, hnil, List.nil_append]
    · intro hwhole
      rw [hwhole] at hbytes
      omega

/-- Where a call begins, the scan finds it or has found a call that hides it. -/
theorem Scans.found_or_hidden {position : Nat} {s before after name : List Char}
    {calls : List Match} {wrapper : Wrapper} {shape : Shape} (h : Scans position s calls)
    (hs : s = before ++ after) (hcall : frontCall? after = some (wrapper, shape, name)) :
    (∃ m ∈ calls, m.start = position + byteSize before ∧
      m.text = .ofList (wrapChars wrapper shape name)) ∨
    ∃ m ∈ calls, m.Hides (position + byteSize before) (.ofList (wrapChars wrapper shape name)) := by
  induction h generalizing before with
  | done =>
    obtain ⟨rfl, rfl⟩ := List.append_eq_nil_iff.mp hs.symm
    have hnone : frontCall? [] = none := rfl
    rw [hnone] at hcall
    cases hcall
  | @call position outer shape' name' rest calls found tail ih =>
    rcases append_eq_append_cases hs with ⟨before', rfl, hrest⟩ | ⟨mid, hmid, hsplit, rfl⟩
    · have hlater := ih hrest
      rw [Nat.add_assoc, ← byteSize_append] at hlater
      rcases hlater with ⟨m, hm, hfound⟩ | ⟨m, hm, hhides⟩
      · exact .inl ⟨m, List.mem_cons_of_mem _ hm, hfound⟩
      · exact .inr ⟨m, List.mem_cons_of_mem _ hm, hhides⟩
    by_cases hbefore : before = []
    · subst hbefore
      rw [List.nil_append] at hsplit
      rw [← hsplit, found] at hcall
      simp only [Option.some.injEq, Prod.mk.injEq] at hcall
      obtain ⟨rfl, rfl, rfl⟩ := hcall
      exact .inl ⟨_, List.mem_cons_self .., rfl, rfl⟩
    · obtain ⟨hname', rest', hsame, hend⟩ := frontCall?_sound found
      obtain rfl := List.append_cancel_left hsame
      obtain ⟨-, tail', hafter, -⟩ := frontCall?_sound hcall
      have hbegin : mid ++ rest = wrapper.called ++ '(' :: (shape.operand name ++ tail') := by
        rw [hafter, wrapChars_eq, List.append_assoc, List.cons_append]
      obtain ⟨hshape, -, inside, hcalled, rfl⟩ := overlap hname' hend hsplit hbefore hmid hbegin
      refine .inr ⟨_, List.mem_cons_self .., ?_⟩
      rw [wrapChars_eq wrapper shape name]
      exact hides_of_overlap hname' hshape hcalled
  | @skip position c rest calls none tail ih =>
    cases before with
    | nil =>
      rw [List.nil_append] at hs
      rw [← hs, none] at hcall
      cases hcall
    | cons d before =>
      obtain ⟨rfl, hrest⟩ := List.cons.inj hs
      have hfound := ih hrest
      rw [byteSize_cons, ← Nat.add_assoc]
      exact hfound

lemma exists_front_of_longestCallAt {text call : String} {place : Nat}
    (h : LongestCallAt text place call) : ∃ before after wrapper shape name,
      text.toList = before ++ after ∧ place = byteSize before ∧
      frontCall? after = some (wrapper, shape, name) ∧
      call = .ofList (wrapChars wrapper shape name) := by
  obtain ⟨front, rest, rfl, hcall, rfl, hlongest⟩ := h
  obtain ⟨wrapper, shape, name, hfound, hlength⟩ := frontCall?_complete hcall rest.toList
  obtain ⟨hname, rest', hsplit, -⟩ := frontCall?_sound hfound
  refine ⟨front.toList, call.toList ++ rest.toList, wrapper, shape, name, by simp,
    utf8ByteSize_eq front, hfound, ?_⟩
  obtain ⟨more, hmore⟩ : call.toList <+: wrapChars wrapper shape name :=
    List.prefix_of_prefix_length_le ⟨_, rfl⟩ ⟨rest', hsplit.symm⟩ hlength
  have hspan : CallAt (front ++ call ++ rest) front.utf8ByteSize
      (front.utf8ByteSize + byteSize (wrapChars wrapper shape name)) := by
    refine callAt_iff.mpr ⟨front.toList, _, rest', ?_, isCall_wrapChars hname wrapper shape,
      utf8ByteSize_eq front, rfl⟩
    rw [← hsplit]
    simp
  have hle := hlongest _ hspan
  rw [← hmore, byteSize_append, utf8ByteSize_eq call] at hle
  have hnil := byteSize_eq_zero (s := more) (by omega)
  rw [← String.toList_inj, String.toList_ofList, ← hmore, hnil, List.append_nil]

lemma longestCallAt_of_found {text : String} {before after name : List Char} {wrapper : Wrapper}
    {shape : Shape} (htext : text.toList = before ++ after)
    (hfound : frontCall? after = some (wrapper, shape, name)) :
    LongestCallAt text (byteSize before) (.ofList (wrapChars wrapper shape name)) := by
  obtain ⟨hname, rest, rfl, -⟩ := frontCall?_sound hfound
  refine ⟨.ofList before, .ofList rest, ?_, ?_, (utf8ByteSize_ofList before).symm, ?_⟩
  · rw [← String.toList_inj]
    simp [htext]
  · rw [String.toList_ofList]
    exact isCall_wrapChars hname _ _
  · intro stop hspan
    obtain ⟨mid, call, tail, hrest, hcall, hmid, rfl⟩ := exists_call_of_callAt htext hspan le_rfl
    have hnil := byteSize_eq_zero (s := mid) (by omega)
    rw [hnil, List.nil_append] at hrest
    have hle := byteSize_le_of_found hfound hrest hcall
    rw [utf8ByteSize_ofList]
    omega

lemma longestCallAt_of_mem_scan {text : String} {m : Match} (hm : m ∈ scan text) :
    LongestCallAt text m.start m.text := by
  obtain ⟨name, front, rest, hs, htext, hstart, hfound⟩ := (scans_scan text).standsIn m hm
  rw [htext, hstart, Nat.zero_add]
  exact longestCallAt_of_found hs hfound

lemma exists_longestCallAt {text : String} {place stop : Nat} (h : CallAt text place stop) :
    ∃ call, LongestCallAt text place call := by
  obtain ⟨before, call, rest, htext, hcall, rfl, -⟩ := callAt_iff.mp h
  obtain ⟨wrapper, shape, name, hfound, -⟩ := frontCall?_complete hcall rest
  exact ⟨_, longestCallAt_of_found htext hfound⟩

lemma eq_of_mem_scan {text : String} {m m' : Match} {place : Nat} (hm : m ∈ scan text)
    (hm' : m' ∈ scan text) (hstart : m.start ≤ place) (hstop : place < m.stop)
    (hstart' : m'.start ≤ place) (hstop' : place < m'.stop) : m' = m := by
  have hapart := List.pairwise_iff_getElem.mp (scans_scan text).pairwise
  obtain ⟨i, hi, rfl⟩ := List.mem_iff_getElem.mp hm
  obtain ⟨j, hj, rfl⟩ := List.mem_iff_getElem.mp hm'
  rcases Nat.lt_trichotomy i j with h | rfl | h
  · have hbehind := hapart i j hi hj h
    omega
  · rfl
  · have hbehind := hapart j i hj hi h
    omega

end PuzzleGate.Call
