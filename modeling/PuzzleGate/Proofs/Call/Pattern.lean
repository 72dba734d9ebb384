import PuzzleGate.Call.Pattern
import PuzzleGate.Proofs.Call.Front

/-!
# The regular expression finds the same calls

Backtracking takes the first attempt that succeeds, the scan takes the longest call. For this
expression both are the same: the two function names exclude each other once the parenthesis is
read, a quoted name ends only at its quote, and of the attempts that are left the first is the
longest.
-/

namespace PuzzleGate.Call

/-- The name of the called function. -/
def Wrapper.called : Wrapper → List Char
  | .multi => "_jsxs".toList
  | .single => "_jsx".toList

lemma opening_eq (wrapper : Wrapper) : wrapper.opening = wrapper.called ++ ['('] := by
  cases wrapper <;> rfl

namespace Pattern

lemma mem_attempts_text {chars s : List Char} {a : Attempt} :
    a ∈ (text chars).attempts s ↔ a = ⟨chars, [], a.rest⟩ ∧ s = chars ++ a.rest := by
  unfold attempts
  split
  · rename_i rest h
    obtain rfl := isPrefixOf?_eq_some.mp h
    constructor
    · intro ha
      rw [List.mem_singleton.mp ha]
      exact ⟨rfl, rfl⟩
    · rintro ⟨ha, hs⟩
      rw [List.mem_singleton, ha, List.append_cancel_left hs]
  · rename_i h
    constructor
    · intro ha
      cases ha
    · rintro ⟨-, hs⟩
      have hsome := isPrefixOf?_eq_some.mpr hs
      rw [h] at hsome
      cases hsome

lemma attempts_text_append (chars s : List Char) :
    (text chars).attempts (chars ++ s) = [⟨chars, [], s⟩] := by
  rw [attempts, isPrefixOf?_append]

lemma attempts_text_eq_nil {chars s : List Char} (h : ∀ t, s ≠ chars ++ t) :
    (text chars).attempts s = [] := by
  rw [attempts, isPrefixOf?_eq_none h]

lemma front?_seq_of_singleton {p q : Pattern} {s : List Char} {a : Attempt}
    (h : p.attempts s = [a]) : (seq p q).front? s = (q.front? a.rest).map fun b =>
      ⟨a.taken ++ b.taken, a.groups ++ b.groups, b.rest⟩ := by
  simp [front?, attempts, h]

lemma front?_seq_of_nil {p q : Pattern} {s : List Char} (h : p.attempts s = []) :
    (seq p q).front? s = none := by
  simp [front?, attempts, h]

lemma front?_either (p q : Pattern) (s : List Char) :
    (either p q).front? s = (p.front? s).or (q.front? s) := by
  simp [front?, attempts, List.head?_append]

lemma front?_group (name : String) (p : Pattern) (s : List Char) :
    (group name p).front? s =
      (p.front? s).map fun a => ⟨a.taken, (name, a.taken) :: a.groups, a.rest⟩ := by
  simp [front?, attempts]

end Pattern

open Pattern

lemma attempts_namePattern_of_none {s : List Char} (h : frontName? s = none) :
    namePattern.attempts s = [] := by
  have hnil : s.takeWhile isNameChar = [] := by
    unfold frontName? at h
    simpa using h
  simp [namePattern, attempts, hnil]

lemma attempts_namePattern {s name : List Char} (h : frontName? s = some name) :
    ∃ others, namePattern.attempts s = ⟨name, [], s.drop name.length⟩ :: others ∧
      ∀ a ∈ others, ∃ c, a.rest.head? = some c ∧ isNameChar c = true := by
  obtain ⟨⟨hne, hall⟩, rest, rfl, hrest⟩ := frontName?_sound h
  have hrun := takeWhile_of_endsName hall hrest
  obtain ⟨n, hn⟩ : ∃ n, name.length = n + 1 :=
    Nat.exists_eq_succ_of_ne_zero (by simpa using hne)
  refine ⟨(List.range n).reverse.map fun k =>
    ⟨(name ++ rest).take (k + 1), [], (name ++ rest).drop (k + 1)⟩, ?_, ?_⟩
  · rw [namePattern, attempts, hrun, hn, List.range_succ, List.reverse_append]
    simp [← hn]
  · intro a ha
    obtain ⟨k, hk, rfl⟩ := List.mem_map.mp ha
    have hlt : k + 1 < name.length := by
      rw [List.mem_reverse, List.mem_range] at hk
      omega
    refine ⟨name[k + 1], ?_, hall _ (List.getElem_mem hlt)⟩
    rw [List.head?_drop, List.getElem?_append_left hlt, List.getElem?_eq_getElem hlt]

lemma front?_namePattern (s : List Char) : namePattern.front? s =
    (frontName? s).map fun name => ⟨name, [], s.drop name.length⟩ := by
  cases h : frontName? s with
  | none => rw [front?, attempts_namePattern_of_none h]; rfl
  | some name =>
    obtain ⟨others, hattempts, -⟩ := attempts_namePattern h
    rw [front?, hattempts]
    rfl

/-! ### Operands -/

/-- The attempt that takes an operand of a shape. -/
def operandAttempt (s : List Char) (shape : Shape) (name : List Char) : Attempt :=
  ⟨shape.operand name, [], s.drop (shape.operand name).length⟩

lemma front?_member (s : List Char) : Shape.member.pattern.front? s =
    ((components.isPrefixOf? s).bind frontName?).map (operandAttempt s .member) := by
  cases hprefix : components.isPrefixOf? s with
  | none =>
    refine front?_seq_of_nil (attempts_text_eq_nil fun t ht => ?_)
    rw [isPrefixOf?_eq_some.mpr ht] at hprefix
    cases hprefix
  | some t =>
    obtain rfl := isPrefixOf?_eq_some.mp hprefix
    rw [Shape.pattern, front?_seq_of_singleton (attempts_text_append components t),
      front?_namePattern, Option.bind_some]
    cases frontName? t with
    | none => rfl
    | some name => simp [operandAttempt, Shape.operand, List.drop_append]

lemma flatMap_quote_eq_nil {others : List Attempt} (f : Attempt → Attempt → Attempt)
    (h : ∀ a ∈ others, ∃ c, a.rest.head? = some c ∧ isNameChar c = true) :
    (others.flatMap fun a => ((text ['"']).attempts a.rest).map (f a)) = [] := by
  rw [List.flatMap_eq_nil_iff]
  intro a ha
  obtain ⟨c, hhead, hc⟩ := h a ha
  have hnil : (text ['"']).attempts a.rest = [] := by
    refine attempts_text_eq_nil fun t ht => ?_
    rw [ht] at hhead
    obtain rfl : '"' = c := by simpa using hhead
    rw [isNameChar_quote] at hc
    cases hc
  rw [hnil, List.map_nil]

lemma front?_quotedName (s : List Char) :
    (seq namePattern (text ['"'])).front? s = (frontName? s).bind fun name =>
      if (s.drop name.length).head? = some '"' then
        some ⟨name ++ ['"'], [], s.drop (name ++ ['"']).length⟩
      else none := by
  cases h : frontName? s with
  | none => rw [front?_seq_of_nil (attempts_namePattern_of_none h)]; rfl
  | some name =>
    obtain ⟨others, hattempts, hothers⟩ := attempts_namePattern h
    rw [front?, attempts, hattempts, List.flatMap_cons, flatMap_quote_eq_nil _ hothers,
      List.append_nil, List.head?_map]
    dsimp only [Option.bind_some]
    split
    · rename_i hquote
      obtain ⟨t, ht⟩ := List.head?_eq_some_iff.mp hquote
      have htail : t = s.drop (name ++ ['"']).length := by
        have := congrArg List.tail ht
        simpa [List.tail_drop] using this.symm
      rw [ht, show '"' :: t = ['"'] ++ t from rfl, attempts_text_append]
      simp [htail]
    · rename_i hquote
      rw [attempts_text_eq_nil]
      · rfl
      · intro t ht
        rw [ht] at hquote
        exact hquote rfl

lemma front?_literal (s : List Char) : Shape.literal.pattern.front? s =
    (frontLiteral? s).map (operandAttempt s .literal) := by
  unfold frontLiteral?
  split
  · rename_i t
    have hquote : (text ['"']).attempts ('"' :: t) = [⟨['"'], [], t⟩] :=
      attempts_text_append ['"'] t
    rw [Shape.pattern, front?_seq_of_singleton hquote, front?_quotedName]
    cases frontName? t with
    | none => rfl
    | some name =>
      dsimp only [Option.bind_some]
      split <;> simp [operandAttempt, Shape.operand]
  · rename_i h
    exact front?_seq_of_nil (attempts_text_eq_nil fun t ht => h t ht)

lemma front?_operandPattern (s : List Char) : operandPattern.front? s =
    (frontOperand? s).map fun (shape, name) =>
      ⟨shape.operand name, [(shape.group, shape.operand name)],
        s.drop (shape.operand name).length⟩ := by
  rw [operandPattern, front?_either, front?_either, front?_group, front?_group, front?_group,
    front?_member, front?_literal, Shape.pattern, front?_namePattern]
  unfold frontOperand?
  cases (components.isPrefixOf? s).bind frontName? with
  | some name => rfl
  | none =>
    cases frontLiteral? s with
    | some name => rfl
    | none => cases frontName? s <;> rfl

/-! ### Calls -/

lemma attempts_openingPattern (s : List Char) : openingPattern.attempts s =
    [Wrapper.multi, .single].flatMap fun wrapper => ((text wrapper.called).attempts s).flatMap
      fun a => ((text ['(']).attempts a.rest).map fun b =>
        ⟨a.taken ++ b.taken, (wrapperGroup, a.taken) :: a.groups ++ b.groups, b.rest⟩ := by
  simp [openingPattern, attempts.eq_3, attempts.eq_4, attempts.eq_5, Wrapper.called,
    List.flatMap_map]

lemma attempts_opening_append (wrapper : Wrapper) (s : List Char) :
    openingPattern.attempts (wrapper.opening ++ s) =
      [⟨wrapper.opening, [(wrapperGroup, wrapper.called)], s⟩] := by
  have hown : ((text wrapper.called).attempts (wrapper.opening ++ s)) =
      [⟨wrapper.called, [], '(' :: s⟩] := by
    rw [opening_eq, List.append_assoc]
    exact attempts_text_append _ _
  have hparen : (text ['(']).attempts ('(' :: s) = [⟨['('], [], s⟩] := attempts_text_append ['('] s
  cases wrapper with
  | multi =>
    -- the shorter function name fits as well, but no parenthesis stands behind it
    have hother : (text Wrapper.single.called).attempts (Wrapper.multi.opening ++ s) =
        [⟨Wrapper.single.called, [], 's' :: '(' :: s⟩] := attempts_text_append _ ('s' :: '(' :: s)
    have hnone : (text ['(']).attempts ('s' :: '(' :: s) = [] :=
      attempts_text_eq_nil fun t ht => by simp at ht
    rw [attempts_openingPattern]
    simp only [List.flatMap_cons, List.flatMap_nil, hown, hother, hparen, hnone, List.map_cons,
      List.map_nil, List.append_nil, ← opening_eq]
  | single =>
    have hother : (text Wrapper.multi.called).attempts (Wrapper.single.opening ++ s) = [] := by
      refine attempts_text_eq_nil fun t ht => ?_
      have hchar := congrArg (fun l => l[4]?) ht
      simp [single_opening, Wrapper.called] at hchar
    rw [attempts_openingPattern]
    simp only [List.flatMap_cons, List.flatMap_nil, hown, hother, hparen, List.map_cons,
      List.map_nil, List.append_nil, List.nil_append, ← opening_eq]

lemma exists_opening_of_mem_attempts {s : List Char} {a : Attempt}
    (h : a ∈ openingPattern.attempts s) : ∃ wrapper : Wrapper, s = wrapper.opening ++ a.rest := by
  rw [attempts_openingPattern] at h
  obtain ⟨wrapper, -, h⟩ := List.mem_flatMap.mp h
  obtain ⟨b, hb, h⟩ := List.mem_flatMap.mp h
  obtain ⟨c, hc, rfl⟩ := List.mem_map.mp h
  have hs := (mem_attempts_text.mp hb).2
  have hrest := (mem_attempts_text.mp hc).2
  refine ⟨wrapper, ?_⟩
  rw [hs, hrest, opening_eq, List.append_assoc]

/-- The attempt that takes a call. -/
def callAttempt (s : List Char) (wrapper : Wrapper) (shape : Shape) (name : List Char) : Attempt :=
  ⟨wrapChars wrapper shape name,
    [(wrapperGroup, wrapper.called), (shape.group, shape.operand name)],
    s.drop (wrapChars wrapper shape name).length⟩

/-- The first attempt that succeeds takes the longest call. -/
theorem front?_callPattern (s : List Char) : callPattern.front? s =
    (frontCall? s).map fun (wrapper, shape, name) => callAttempt s wrapper shape name := by
  by_cases h : ∃ (wrapper : Wrapper) (t : List Char), s = wrapper.opening ++ t
  · obtain ⟨wrapper, t, rfl⟩ := h
    rw [callPattern, front?_seq_of_singleton (attempts_opening_append wrapper t),
      front?_operandPattern, frontCall?_opening]
    cases frontOperand? t with
    | none => rfl
    | some parts => simp [callAttempt, wrapChars, List.drop_append]
  · have hnil : openingPattern.attempts s = [] := by
      rw [List.eq_nil_iff_forall_not_mem]
      intro a ha
      obtain ⟨wrapper, hs⟩ := exists_opening_of_mem_attempts ha
      exact h ⟨wrapper, _, hs⟩
    have hnone : frontCall? s = none := by
      rw [Option.eq_none_iff_forall_ne_some]
      rintro ⟨wrapper, shape, name⟩ hfound
      obtain ⟨t, hs, -⟩ := frontCall?_eq_some hfound
      exact h ⟨wrapper, t, hs⟩
    rw [callPattern, front?_seq_of_nil hnil, hnone]
    rfl

lemma classify_callAttempt (position : Nat) (s : List Char) (wrapper : Wrapper) (shape : Shape)
    (name : List Char) : classify position (callAttempt s wrapper shape name) =
      some ⟨position, wrapper, shape, .ofList (wrapChars wrapper shape name)⟩ := by
  have hwrapper : (callAttempt s wrapper shape name).wrapper? = some wrapper := by
    cases wrapper <;> rfl
  have hshape : (callAttempt s wrapper shape name).shape? = some shape := by
    cases shape <;> rfl
  rw [classify, hwrapper, hshape]
  rfl

lemma filterMap_matchesFrom (skip position : Nat) (s : List Char) :
    ((callPattern.matchesFrom skip position s).filterMap fun (place, attempt) =>
      classify place attempt) = scanFrom skip position s := by
  induction s generalizing skip position with
  | nil => cases skip <;> rfl
  | cons c s ih =>
    cases skip with
    | succ skip => rw [matchesFrom, scanFrom, ih]
    | zero =>
      rw [matchesFrom, scanFrom, front?_callPattern]
      cases frontCall? (c :: s) with
      | none => exact ih 0 _
      | some parts =>
        obtain ⟨wrapper, shape, name⟩ := parts
        dsimp only [Option.map_some]
        rw [List.filterMap_cons, classify_callAttempt]
        dsimp only
        rw [ih]
        rfl

/-- The regular expression finds the calls that the scan finds. -/
theorem matchAll_eq_scan (text : String) : matchAll text = scan text :=
  filterMap_matchesFrom 0 0 text.toList

/-! ### Looking for one call -/

lemma bind_search? (position : Nat) (s : List Char) :
    ((callPattern.search? position s).bind fun (place, attempt) => classify place attempt) =
      firstFrom? position s := by
  induction s generalizing position with
  | nil => rfl
  | cons c s ih =>
    rw [search?, firstFrom?, front?_callPattern]
    cases frontCall? (c :: s) with
    | none => exact ih _
    | some parts =>
      obtain ⟨wrapper, shape, name⟩ := parts
      exact classify_callAttempt position (c :: s) wrapper shape name

theorem firstMatch?_eq_first? (text : String) : firstMatch? text = first? text :=
  bind_search? 0 text.toList

lemma isEmpty_attempts_callPattern (s : List Char) :
    (callPattern.attempts s).isEmpty = (frontCall? s).isNone := by
  have hfront := congrArg Option.isNone (front?_callPattern s)
  rw [Option.isNone_map, front?] at hfront
  rw [← hfront]
  cases callPattern.attempts s <;> rfl

lemma occursIn_callPattern (s : List Char) : callPattern.occursIn s = Call.occursIn s := by
  induction s with
  | nil => rfl
  | cons c s ih =>
    rw [Pattern.occursIn, Call.occursIn, isEmpty_attempts_callPattern, ih, Option.not_isNone]

theorem isMatch_eq_occurs (text : String) : isMatch text = occurs text :=
  occursIn_callPattern text.toList

end PuzzleGate.Call
