import PuzzleGate.Proofs.Call.Counts
import PuzzleGate.Proofs.Call.Wrap

/-!
# Texts that are put together

A character that no call can contain keeps the calls on both of its sides apart. The calls of a text
are then those of its parts, one part after the other, and a text that is put together from written
calls is taken apart into the same calls.
-/

namespace PuzzleGate.Call

open Text

/-- No call has this character in it. -/
structure Separates (c : Char) : Prop where
  notName : isNameChar c = false
  notDot : c ≠ '.'
  notQuote : c ≠ '"'
  notParen : c ≠ '('

instance (c : Char) : Decidable (Separates c) :=
  decidable_of_iff (isNameChar c = false ∧ c ≠ '.' ∧ c ≠ '"' ∧ c ≠ '(')
    ⟨fun ⟨hname, hdot, hquote, hparen⟩ => ⟨hname, hdot, hquote, hparen⟩,
      fun h => ⟨h.notName, h.notDot, h.notQuote, h.notParen⟩⟩

variable {c : Char}

lemma Separates.not_mem_opening (hc : Separates c) (wrapper : Wrapper) : c ∉ wrapper.opening := by
  have hall : wrapper.opening.all (fun d => isNameChar d || d == '(') = true := by
    cases wrapper <;> rfl
  intro hmem
  have hchar := List.all_eq_true.mp hall c hmem
  simp [hc.notName, hc.notParen] at hchar

lemma Separates.not_mem_components (hc : Separates c) : c ∉ components := by
  have hall : components.all (fun d => isNameChar d || d == '.') = true := rfl
  intro hmem
  have hchar := List.all_eq_true.mp hall c hmem
  simp [hc.notName, hc.notDot] at hchar

lemma isPrefixOf?_append_cons {chars : List Char} (hc : c ∉ chars) (s rest : List Char) :
    chars.isPrefixOf? (s ++ c :: rest) = (chars.isPrefixOf? s).map (· ++ c :: rest) := by
  induction chars generalizing s with
  | nil => rfl
  | cons d chars ih =>
    rw [List.mem_cons, not_or] at hc
    cases s with
    | nil =>
      have hne : (d == c) = false := beq_eq_false_iff_ne.mpr (Ne.symm hc.1)
      simp [List.isPrefixOf?, hne]
    | cons e s =>
      rw [List.cons_append, List.isPrefixOf?, List.isPrefixOf?, ih hc.2]
      split <;> rfl

lemma frontName?_append_cons (hc : Separates c) (s rest : List Char) :
    frontName? (s ++ c :: rest) = frontName? s := by
  have hname : (s ++ c :: rest).takeWhile isNameChar = s.takeWhile isNameChar := by
    rw [List.takeWhile_append, List.takeWhile_cons_of_neg (by simp [hc.notName]), List.append_nil]
    split
    · rename_i hlength
      exact ((List.takeWhile_prefix _).eq_of_length hlength).symm
    · rfl
  rw [frontName?, frontName?, hname]

lemma head?_drop_append_cons (hc : Separates c) {name s : List Char} (h : frontName? s = some name)
    (rest : List Char) : ((s ++ c :: rest).drop name.length).head? = some '"' ↔
      (s.drop name.length).head? = some '"' := by
  obtain ⟨-, tail, rfl, -⟩ := frontName?_sound h
  rw [List.append_assoc, List.drop_left, List.drop_left]
  cases tail with
  | nil => simp [hc.notQuote]
  | cons d tail => rfl

lemma frontLiteral?_append_cons (hc : Separates c) (s rest : List Char) :
    frontLiteral? (s ++ c :: rest) = frontLiteral? s := by
  cases s with
  | nil =>
    rw [List.nil_append]
    unfold frontLiteral?
    split
    · rename_i heq
      exact absurd (List.cons.inj heq).1 hc.notQuote
    · rfl
  | cons d s =>
    rw [List.cons_append]
    by_cases hd : d = '"'
    · subst hd
      rw [frontLiteral?, frontLiteral?, frontName?_append_cons hc]
      cases hname : frontName? s with
      | none => rfl
      | some name => simp only [Option.bind_some, head?_drop_append_cons hc hname]
    · unfold frontLiteral?
      split
      · rename_i heq
        exact absurd (List.cons.inj heq).1 hd
      · split
        · rename_i heq
          exact absurd (List.cons.inj heq).1 hd
        · rfl

lemma frontOperand?_append_cons (hc : Separates c) (s rest : List Char) :
    frontOperand? (s ++ c :: rest) = frontOperand? s := by
  have hmember : (components.isPrefixOf? (s ++ c :: rest)).bind frontName? =
      (components.isPrefixOf? s).bind frontName? := by
    rw [isPrefixOf?_append_cons hc.not_mem_components, Option.bind_map]
    exact congrArg _ (funext fun operand => frontName?_append_cons hc operand rest)
  rw [frontOperand?, frontOperand?, hmember, frontLiteral?_append_cons hc,
    frontName?_append_cons hc]

/-- What stands behind a separator has no part in the call that begins in front of it. -/
theorem frontCall?_append_cons (hc : Separates c) (s rest : List Char) :
    frontCall? (s ++ c :: rest) = frontCall? s := by
  have hsingle : (Wrapper.single.opening.isPrefixOf? (s ++ c :: rest)).bind frontOperand? =
      (Wrapper.single.opening.isPrefixOf? s).bind frontOperand? := by
    rw [isPrefixOf?_append_cons (hc.not_mem_opening .single), Option.bind_map]
    exact congrArg _ (funext fun operand => frontOperand?_append_cons hc operand rest)
  rw [frontCall?, frontCall?, hsingle, isPrefixOf?_append_cons (hc.not_mem_opening .multi)]
  cases Wrapper.multi.opening.isPrefixOf? s with
  | none => rfl
  | some operand => simp only [Option.map_some, frontOperand?_append_cons hc]

/-- The same call in a text with so many bytes more in front. -/
def Match.shift (bytes : Nat) (m : Match) : Match := { m with start := bytes + m.start }

lemma Scans.shift {position : Nat} {s : List Char} {calls : List Match} (h : Scans position s calls)
    (bytes : Nat) : Scans (bytes + position) s (calls.map (Match.shift bytes)) := by
  induction h with
  | done => exact .done _
  | call found tail ih => exact .call found (by rwa [Nat.add_assoc])
  | skip none tail ih => exact .skip none (by rwa [Nat.add_assoc])

theorem Scans.append_cons {position : Nat} {s rest : List Char} {calls more : List Match}
    (hc : Separates c) (h : Scans position s calls)
    (hmore : Scans (position + byteSize (s ++ [c])) rest more) :
    Scans position (s ++ c :: rest) (calls ++ more) := by
  induction h with
  | done position =>
    refine .skip ?_ (by simpa using hmore)
    exact frontCall?_append_cons hc [] rest
  | @call position wrapper shape name tail calls found htail ih =>
    rw [List.append_assoc, byteSize_append, ← Nat.add_assoc] at hmore
    rw [List.append_assoc]
    refine .call ?_ (ih hmore)
    rw [← List.append_assoc, frontCall?_append_cons hc, found]
  | @skip position d tail calls none htail ih =>
    rw [List.cons_append, byteSize_cons, ← Nat.add_assoc] at hmore
    have hnone : frontCall? (d :: tail ++ c :: rest) = .none := by
      rw [frontCall?_append_cons hc, none]
    exact .skip hnone (ih hmore)

/-- The calls in front of a separator and those behind it are the calls of the whole text. -/
theorem matchAll_append (hc : Separates c) (a b : String) :
    matchAll (a ++ String.singleton c ++ b) = matchAll a ++
      (matchAll b).map (Match.shift (a ++ String.singleton c).utf8ByteSize) := by
  have hbytes : (a ++ String.singleton c).utf8ByteSize = byteSize (a.toList ++ [c]) := by
    rw [utf8ByteSize_eq, String.toList_append, String.toList_singleton]
  have hback := (scans_scan b).shift (a ++ String.singleton c).utf8ByteSize
  rw [Nat.add_zero, hbytes] at hback
  rw [matchAll_eq_scan, matchAll_eq_scan, matchAll_eq_scan, hbytes]
  apply scan_eq_of_scans
  have htext : (a ++ String.singleton c ++ b).toList = a.toList ++ c :: b.toList := by
    simp
  rw [htext]
  exact (scans_scan a).append_cons hc (by rwa [Nat.zero_add])

lemma map_matchAll_append {α : Type} {label : Match → α}
    (hlabel : ∀ bytes m, label (m.shift bytes) = label m) (hc : Separates c) (a b : String) :
    (matchAll (a ++ String.singleton c ++ b)).map label =
      (matchAll a).map label ++ (matchAll b).map label := by
  rw [matchAll_append hc, List.map_append, List.map_map]
  exact congrArg _ (List.map_congr_left fun m _ => hlabel _ m)

/-- The number under which the name is counted, which is nothing for a name that is not counted. -/
def occurrencesOf (name : String) (counts : List ElementCount) : Nat :=
  ((counts.find? fun entry => entry.name == name).map ElementCount.occurrences).getD 0

lemma occurrencesOf_map (name : String) (names : List String) (occurrences : String → Nat) :
    occurrencesOf name (names.map fun n => ⟨n, occurrences n⟩) =
      if name ∈ names then occurrences name else 0 := by
  induction names with
  | nil => rfl
  | cons n names ih =>
    rw [List.map_cons, occurrencesOf, List.find?_cons]
    by_cases hname : n = name
    · simp [hname]
    · rw [beq_eq_false_iff_ne.mpr hname]
      have hmem : name ∈ n :: names ↔ name ∈ names := by simp [Ne.symm hname]
      simp only [hmem]
      exact ih

lemma occurrencesOf_elementCounts (name text : String) :
    occurrencesOf name (elementCounts text) = ((matchAll text).map Match.name).count name := by
  rw [elementCounts, countNames_eq, occurrencesOf_map, matchAll_eq_scan]
  split
  · rfl
  · rename_i hnew
    rw [mem_distinct] at hnew
    exact (List.count_eq_zero_of_not_mem hnew).symm

lemma elements_append (hc : Separates c) (a b : String) :
    elements (a ++ String.singleton c ++ b) =
      elements a ++ (elements b).filter fun name => name ∉ elements a := by
  simp only [elements_eq_distinct]
  rw [map_matchAll_append (fun _ _ => rfl) hc, distinct_append]

lemma occurrencesOf_append (hc : Separates c) (a b name : String) :
    occurrencesOf name (elementCounts (a ++ String.singleton c ++ b)) =
      occurrencesOf name (elementCounts a) + occurrencesOf name (elementCounts b) := by
  simp only [occurrencesOf_elementCounts]
  rw [map_matchAll_append (fun _ _ => rfl) hc, List.count_append]

/-! ### Texts of written calls -/

/-- What a call is written from. -/
structure Parts where
  wrapper : Wrapper
  shape : Shape
  name : String

def Parts.text (parts : Parts) : String := wrap parts.wrapper parts.shape parts.name

def Match.parts (m : Match) : Parts := ⟨m.wrapper, m.shape, m.name⟩

/-- What may stand between two calls: a separator, or a text without calls between two of them. -/
inductive IsGap : String → Prop where
  | single {c : Char} (hc : Separates c) : IsGap (String.singleton c)
  | around {c d : Char} {inside : String} (hc : Separates c) (hd : Separates d)
      (hinside : matchAll inside = []) :
      IsGap (String.singleton c ++ inside ++ String.singleton d)

/-- The text is written from these calls in their order, with a gap behind each of them. There need
not be one behind the last. -/
inductive Joined : List Parts → String → Prop where
  | none : Joined [] ""
  | one (parts : Parts) : Joined [parts] parts.text
  | more {parts : Parts} {others : List Parts} {gap text : String} (hgap : IsGap gap)
      (rest : Joined others text) : Joined (parts :: others) (parts.text ++ gap ++ text)

lemma parts_wrap {parts : Parts} (h : IsName parts.name.toList) :
    (matchAll parts.text).map Match.parts = [parts] := by
  have hparts : Match.parts ⟨0, parts.wrapper, parts.shape, parts.text⟩ = parts := by
    rw [Match.parts, Match.name, Parts.text, normalize_wrap h]
  rw [matchAll_eq_scan, Parts.text, scan_wrap h, List.map_singleton]
  exact congrArg (fun found => [found]) hparts

lemma parts_gap {gap : String} (hgap : IsGap gap) (a b : String) :
    (matchAll (a ++ gap ++ b)).map Match.parts =
      (matchAll a).map Match.parts ++ (matchAll b).map Match.parts := by
  cases hgap with
  | single hc => exact map_matchAll_append (fun _ _ => rfl) hc a b
  | @around c d inside hc hd hinside =>
    have hsplit : a ++ (String.singleton c ++ inside ++ String.singleton d) ++ b =
        a ++ String.singleton c ++ (inside ++ String.singleton d ++ b) := by
      simp only [String.append_assoc]
    rw [hsplit, map_matchAll_append (fun _ _ => rfl) hc, map_matchAll_append (fun _ _ => rfl) hd,
      hinside, List.map_nil, List.nil_append]

theorem parts_of_joined {calls : List Parts} {text : String} (h : Joined calls text)
    (hnames : ∀ parts ∈ calls, IsName parts.name.toList) :
    (matchAll text).map Match.parts = calls := by
  induction h with
  | none => rfl
  | one parts => exact parts_wrap (hnames parts (List.mem_singleton_self parts))
  | @more parts others gap text hgap rest ih =>
    obtain ⟨hname, hothers⟩ := List.forall_mem_cons.mp hnames
    rw [parts_gap hgap, parts_wrap hname, ih hothers, List.singleton_append]

/-- A text that is split at a separator has the calls of its front and then those of its back, as
many bytes further on as stand in front of them. So its elements are those of the front and the new
ones of the back, and the counts of a name add up. A text that is written from calls with separators
between them is taken apart into these calls. -/
theorem calls_split_at_separators :
    (∀ (a b : String) (c : Char), Separates c →
      matchAll (a ++ String.singleton c ++ b) = matchAll a ++
        (matchAll b).map (Match.shift (a ++ String.singleton c).utf8ByteSize) ∧
      elements (a ++ String.singleton c ++ b) =
        elements a ++ (elements b).filter (fun name => name ∉ elements a) ∧
      ∀ name, occurrencesOf name (elementCounts (a ++ String.singleton c ++ b)) =
        occurrencesOf name (elementCounts a) + occurrencesOf name (elementCounts b)) ∧
    ∀ (calls : List Parts) (text : String), Joined calls text →
      (∀ parts ∈ calls, IsName parts.name.toList) →
        (matchAll text).map Match.parts = calls ∧
        elements text = distinct (calls.map Parts.name) := by
  refine ⟨fun a b c hc => ⟨matchAll_append hc a b, elements_append hc a b,
    occurrencesOf_append hc a b⟩, fun calls text h hnames => ?_⟩
  have hparts := parts_of_joined h hnames
  refine ⟨hparts, ?_⟩
  rw [elements_eq_distinct, ← hparts, List.map_map]
  rfl

/-- A separator of several bytes, and on both sides of it calls that are read as one element. -/
theorem calls_split_at_separators_dash : Separates '—' ∧
    (matchAll "_jsx(p—_jsxs(\"p\"").map Match.span = [(0, 6), (9, 18)] ∧
    elements "_jsx(p—_jsxs(\"p\"" = ["p"] ∧
    (Joined [⟨.single, .ident, "p"⟩, ⟨.multi, .literal, "p"⟩] "_jsx(p—_jsxs(\"p\"" ∧
      (matchAll "_jsx(p—_jsxs(\"p\"").map Match.parts =
        [⟨.single, .ident, "p"⟩, ⟨.multi, .literal, "p"⟩]) := by
  have hc : Separates '—' := by decide
  have hname : IsName "p".toList := ⟨by decide, List.all_eq_true.mp rfl⟩
  have hjoined : Joined [⟨.single, .ident, "p"⟩, ⟨.multi, .literal, "p"⟩]
      "_jsx(p—_jsxs(\"p\"" := .more (.single hc) (.one _)
  obtain ⟨hsplit, hwritten⟩ := calls_split_at_separators
  obtain ⟨hcalls, helements, -⟩ := hsplit "_jsx(p" "_jsxs(\"p\"" '—' hc
  obtain ⟨hparts, -⟩ := hwritten _ _ hjoined
    (List.forall_mem_cons.mpr ⟨hname, List.forall_mem_singleton.mpr hname⟩)
  refine ⟨hc, ?_, ?_, hjoined, hparts⟩
  · have hspans := congrArg (List.map Match.span) hcalls
    simp only [matchAll_eq_scan] at hspans ⊢
    exact hspans.trans (by decide)
  · exact helements.trans (by decide)

/-- The marks that stand in calls are no separators: each makes a longer call or a first one. -/
example : ∀ parts ∈ [("_jsx(_components", '.', "p"), ("_jsx(\"p", '"', ""), ("_jsx", '(', "p")],
    scan (parts.1 ++ String.singleton parts.2.1 ++ parts.2.2) ≠ scan parts.1 ++
      (scan parts.2.2).map (Match.shift (parts.1 ++ String.singleton parts.2.1).utf8ByteSize) := by
  decide

end PuzzleGate.Call
