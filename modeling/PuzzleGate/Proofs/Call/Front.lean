import Mathlib.Data.List.Basic
import Mathlib.Data.List.TakeWhile
import Mathlib.Order.Basic
import PuzzleGate.Call.Grammar
import PuzzleGate.Call.Scan

/-!
# The call at the front of a text

`frontCall?` finds a call where one begins, and it finds the longest one: no call at the front of
the text is longer than the call that is found.
-/

namespace PuzzleGate.Call

/-- No name goes on into this text. -/
def EndsName (rest : List Char) : Prop := ∀ c, rest.head? = some c → isNameChar c = false

lemma takeWhile_of_endsName {name rest : List Char} (hname : ∀ c ∈ name, isNameChar c = true)
    (hrest : EndsName rest) : (name ++ rest).takeWhile isNameChar = name := by
  induction name with
  | nil =>
    cases rest with
    | nil => rfl
    | cons c rest =>
      have hc : isNameChar c = false := hrest c rfl
      simp [hc]
  | cons c name ih =>
    have hc : isNameChar c = true := hname c (by simp)
    rw [List.cons_append, List.takeWhile_cons_of_pos hc,
      ih (fun d hd => hname d (List.mem_cons_of_mem _ hd))]

lemma takeWhile_name_append {name : List Char} (hname : ∀ c ∈ name, isNameChar c = true)
    (rest : List Char) :
    (name ++ rest).takeWhile isNameChar = name ++ rest.takeWhile isNameChar := by
  induction name with
  | nil => rfl
  | cons c name ih =>
    have hc : isNameChar c = true := hname c (by simp)
    rw [List.cons_append, List.takeWhile_cons_of_pos hc,
      ih (fun d hd => hname d (List.mem_cons_of_mem _ hd)), List.cons_append]

lemma endsName_dropWhile (s : List Char) : EndsName (s.dropWhile isNameChar) := by
  intro c hc
  induction s with
  | nil => simp at hc
  | cons d s ih =>
    by_cases hd : isNameChar d = true
    · rw [List.dropWhile_cons_of_pos hd] at hc
      exact ih hc
    · rw [List.dropWhile_cons_of_neg hd] at hc
      simp only [List.head?_cons, Option.some.injEq] at hc
      simpa [← hc] using hd

lemma frontName?_sound {s name : List Char} (h : frontName? s = some name) :
    IsName name ∧ ∃ rest, s = name ++ rest ∧ EndsName rest := by
  unfold frontName? at h
  dsimp only at h
  split at h
  · cases h
  · rename_i hne
    obtain rfl := Option.some.inj h
    refine ⟨⟨by simpa using hne, fun c hc => List.mem_takeWhile_imp hc⟩,
      s.dropWhile isNameChar, ?_, endsName_dropWhile s⟩
    exact List.takeWhile_append_dropWhile.symm

lemma frontName?_complete {name : List Char} (h : IsName name) (rest : List Char) :
    frontName? (name ++ rest) = some (name ++ rest.takeWhile isNameChar) := by
  have hne : name ++ rest.takeWhile isNameChar ≠ [] := by simp [h.1]
  unfold frontName?
  rw [takeWhile_name_append h.2]
  simp [List.isEmpty_iff, hne]

lemma frontName?_of_endsName {name rest : List Char} (h : IsName name) (hrest : EndsName rest) :
    frontName? (name ++ rest) = some name := by
  unfold frontName?
  rw [takeWhile_of_endsName h.2 hrest]
  simp [h.1]

lemma endsName_cons {c : Char} (hc : isNameChar c = false) (rest : List Char) :
    EndsName (c :: rest) := by
  intro d hd
  simp only [List.head?_cons, Option.some.injEq] at hd
  rw [← hd]
  exact hc

lemma isNameChar_quote : isNameChar '"' = false := by decide

lemma frontLiteral?_sound {s name : List Char} (h : frontLiteral? s = some name) :
    IsName name ∧ ∃ rest, s = Shape.literal.operand name ++ rest := by
  unfold frontLiteral? at h
  split at h
  · rename_i rest
    obtain ⟨found, hfound, hquote⟩ := Option.bind_eq_some_iff.mp h
    obtain ⟨hname, tail, rfl, -⟩ := frontName?_sound hfound
    rw [List.drop_left] at hquote
    split at hquote
    · rename_i hhead
      obtain rfl := Option.some.inj hquote
      obtain ⟨last, rfl⟩ := List.head?_eq_some_iff.mp hhead
      exact ⟨hname, last, by simp [Shape.operand]⟩
    · cases hquote
  · cases h

lemma frontLiteral?_complete {name : List Char} (h : IsName name) (rest : List Char) :
    frontLiteral? (Shape.literal.operand name ++ rest) = some name := by
  have hname := frontName?_of_endsName h (endsName_cons isNameChar_quote rest)
  simp [Shape.operand, frontLiteral?, hname]

lemma components_eq : components =
    ['_', 'c', 'o', 'm', 'p', 'o', 'n', 'e', 'n', 't', 's'] ++ ['.'] := rfl

lemma multi_opening : Wrapper.multi.opening = ['_', 'j', 's', 'x', 's'] ++ ['('] := rfl

lemma single_opening : Wrapper.single.opening = ['_', 'j', 's', 'x'] ++ ['('] := rfl

lemma isPrefixOf?_eq_some {chars s rest : List Char} :
    chars.isPrefixOf? s = some rest ↔ s = chars ++ rest := by
  rw [List.isPrefixOf?_eq_some_iff_append_eq, eq_comm]

lemma isPrefixOf?_append (chars rest : List Char) : chars.isPrefixOf? (chars ++ rest) = some rest :=
  isPrefixOf?_eq_some.mpr rfl

lemma isPrefixOf?_eq_none {chars s : List Char} (h : ∀ rest, s ≠ chars ++ rest) :
    chars.isPrefixOf? s = none := by
  rw [Option.eq_none_iff_forall_ne_some]
  intro rest hrest
  exact h rest (isPrefixOf?_eq_some.mp hrest)

lemma frontOperand?_sound {s name : List Char} {shape : Shape}
    (h : frontOperand? s = some (shape, name)) :
    IsName name ∧ ∃ rest, s = shape.operand name ++ rest ∧ (shape ≠ .literal → EndsName rest) := by
  unfold frontOperand? at h
  split at h
  · rename_i found hmember
    simp only [Option.some.injEq, Prod.mk.injEq] at h
    obtain ⟨rfl, rfl⟩ := h
    obtain ⟨tail, hprefix, hfound⟩ := Option.bind_eq_some_iff.mp hmember
    obtain rfl := isPrefixOf?_eq_some.mp hprefix
    obtain ⟨hname, rest, rfl, hrest⟩ := frontName?_sound hfound
    exact ⟨hname, rest, by simp [Shape.operand], fun _ => hrest⟩
  · split at h
    · rename_i found hliteral
      simp only [Option.some.injEq, Prod.mk.injEq] at h
      obtain ⟨rfl, rfl⟩ := h
      obtain ⟨hname, rest, hs⟩ := frontLiteral?_sound hliteral
      exact ⟨hname, rest, hs, fun hshape => absurd rfl hshape⟩
    · obtain ⟨found, hfound, hpair⟩ := Option.map_eq_some_iff.mp h
      simp only [Prod.mk.injEq] at hpair
      obtain ⟨rfl, rfl⟩ := hpair
      obtain ⟨hname, rest, hs, hrest⟩ := frontName?_sound hfound
      exact ⟨hname, rest, hs, fun _ => hrest⟩

lemma frontOperand?_member {s name : List Char} (h : frontName? s = some name) :
    frontOperand? (components ++ s) = some (.member, name) := by
  simp [frontOperand?, isPrefixOf?_append, h]

lemma frontOperand?_literal {name : List Char} (h : IsName name) (rest : List Char) :
    frontOperand? (Shape.literal.operand name ++ rest) = some (.literal, name) := by
  have hprefix : components.isPrefixOf? (Shape.literal.operand name ++ rest) = none := by
    apply isPrefixOf?_eq_none
    intro tail htail
    simp [Shape.operand, components_eq] at htail
  simp [frontOperand?, hprefix, frontLiteral?_complete h rest]

lemma IsName.head_ne_quote {c : Char} {name : List Char} (h : IsName (c :: name)) : c ≠ '"' := by
  rintro rfl
  have hquote := h.2 '"' (by simp)
  rw [isNameChar_quote] at hquote
  cases hquote

lemma frontLiteral?_name {name : List Char} (h : IsName name) (rest : List Char) :
    frontLiteral? (name ++ rest) = none := by
  obtain ⟨c, tail, rfl⟩ := List.exists_cons_of_ne_nil h.1
  unfold frontLiteral?
  split
  · rename_i heq
    exact absurd (List.cons.inj heq).1 h.head_ne_quote
  · rfl

lemma frontOperand?_ident {name : List Char} (h : IsName name) (rest : List Char) :
    ∃ shape found, frontOperand? (name ++ rest) = some (shape, found) ∧
      name.length ≤ (shape.operand found).length := by
  cases hmember : (components.isPrefixOf? (name ++ rest)).bind frontName? with
  | none =>
    refine ⟨.ident, name ++ rest.takeWhile isNameChar, ?_, by simp [Shape.operand]⟩
    simp [frontOperand?, hmember, frontLiteral?_name h rest, frontName?_complete h rest]
  | some found =>
    refine ⟨.member, found, by simp [frontOperand?, hmember], ?_⟩
    obtain ⟨tail, hprefix, -⟩ := Option.bind_eq_some_iff.mp hmember
    have hs := isPrefixOf?_eq_some.mp hprefix
    -- the name cannot go beyond the dot of the mark
    have hfront : name ++ rest.takeWhile isNameChar =
        ['_', 'c', 'o', 'm', 'p', 'o', 'n', 'e', 'n', 't', 's'] := by
      rw [← takeWhile_name_append h.2, hs, components_eq, List.append_assoc]
      exact takeWhile_of_endsName (List.all_eq_true.mp rfl) (endsName_cons (by decide) tail)
    have hlength := congrArg List.length hfront
    simp only [List.length_append, List.length_cons, List.length_nil] at hlength
    simp only [Shape.operand, components_eq, List.length_append, List.length_cons]
    omega

/-- Where an operand begins an operand is found, and it is at least as long. -/
theorem frontOperand?_complete {name : List Char} (h : IsName name) (shape : Shape)
    (rest : List Char) :
    ∃ shape' found, frontOperand? (shape.operand name ++ rest) = some (shape', found) ∧
      (shape.operand name).length ≤ (shape'.operand found).length := by
  cases shape with
  | member =>
    refine ⟨.member, name ++ rest.takeWhile isNameChar, ?_, by simp [Shape.operand]⟩
    rw [Shape.operand, List.append_assoc]
    exact frontOperand?_member (frontName?_complete h rest)
  | literal => exact ⟨.literal, name, frontOperand?_literal h rest, le_rfl⟩
  | ident => exact frontOperand?_ident h rest

lemma opening_append_inj {w w' : Wrapper} {s t : List Char}
    (h : w.opening ++ s = w'.opening ++ t) : w = w' ∧ s = t := by
  cases w <;> cases w' <;> simp [multi_opening, single_opening] at h
  · exact ⟨rfl, h⟩
  · exact ⟨rfl, h⟩

lemma multi_isPrefixOf?_single (s : List Char) :
    Wrapper.multi.opening.isPrefixOf? (Wrapper.single.opening ++ s) = none := by
  apply isPrefixOf?_eq_none
  intro tail htail
  cases (opening_append_inj htail).1

lemma frontCall?_opening (wrapper : Wrapper) (s : List Char) :
    frontCall? (wrapper.opening ++ s) = (frontOperand? s).map (wrapper, ·) := by
  have hown := isPrefixOf?_append wrapper.opening s
  cases wrapper with
  | multi => simp only [frontCall?, hown]
  | single =>
    simp only [frontCall?, multi_isPrefixOf?_single s, hown, Option.bind_some]

lemma frontCall?_eq_some {s name : List Char} {wrapper : Wrapper} {shape : Shape}
    (h : frontCall? s = some (wrapper, shape, name)) :
    ∃ t, s = wrapper.opening ++ t ∧ frontOperand? t = some (shape, name) := by
  unfold frontCall? at h
  split at h
  · rename_i t hprefix
    obtain ⟨found, hfound, hpair⟩ := Option.map_eq_some_iff.mp h
    simp only [Prod.mk.injEq] at hpair
    obtain ⟨rfl, rfl⟩ := hpair
    exact ⟨t, isPrefixOf?_eq_some.mp hprefix, hfound⟩
  · obtain ⟨found, hfound, hpair⟩ := Option.map_eq_some_iff.mp h
    simp only [Prod.mk.injEq] at hpair
    obtain ⟨rfl, rfl⟩ := hpair
    obtain ⟨t, hprefix, hoperand⟩ := Option.bind_eq_some_iff.mp hfound
    exact ⟨t, isPrefixOf?_eq_some.mp hprefix, hoperand⟩

/-- The call that is found stands at the front, and no name goes on behind it unless its operand
is quoted. -/
theorem frontCall?_sound {s name : List Char} {wrapper : Wrapper} {shape : Shape}
    (h : frontCall? s = some (wrapper, shape, name)) :
    IsName name ∧ ∃ rest, s = wrapChars wrapper shape name ++ rest ∧
      (shape ≠ .literal → EndsName rest) := by
  obtain ⟨t, rfl, hoperand⟩ := frontCall?_eq_some h
  obtain ⟨hname, rest, rfl, hrest⟩ := frontOperand?_sound hoperand
  exact ⟨hname, rest, by simp [wrapChars], hrest⟩

lemma derives_iff {wrapper : Wrapper} {shape : Shape} {name text : List Char} :
    Derives wrapper shape name text ↔ IsName name ∧ text = wrapChars wrapper shape name := by
  constructor
  · intro h
    cases h with
    | member _ h => exact ⟨h, by simp [wrapChars, Shape.operand]⟩
    | literal _ h => exact ⟨h, by simp [wrapChars, Shape.operand]⟩
    | ident _ h => exact ⟨h, rfl⟩
  · rintro ⟨h, rfl⟩
    cases shape with
    | member =>
      rw [wrapChars, Shape.operand, ← List.append_assoc]
      exact .member wrapper name h
    | literal =>
      rw [wrapChars, Shape.operand, ← List.append_assoc]
      exact .literal wrapper name h
    | ident => exact .ident wrapper name h

/-- Where a call begins a call is found, and it is at least as long. -/
theorem frontCall?_complete {call : List Char} (h : IsCall call) (rest : List Char) :
    ∃ wrapper shape name, frontCall? (call ++ rest) = some (wrapper, shape, name) ∧
      call.length ≤ (wrapChars wrapper shape name).length := by
  obtain ⟨wrapper, shape, name, hderives⟩ := h
  obtain ⟨hname, rfl⟩ := derives_iff.mp hderives
  obtain ⟨shape', found, hfound, hlength⟩ := frontOperand?_complete hname shape rest
  refine ⟨wrapper, shape', found, ?_, by simpa [wrapChars] using hlength⟩
  rw [wrapChars, List.append_assoc, frontCall?_opening, hfound]
  rfl

lemma isCall_wrapChars {name : List Char} (h : IsName name) (wrapper : Wrapper) (shape : Shape) :
    IsCall (wrapChars wrapper shape name) :=
  ⟨wrapper, shape, name, derives_iff.mpr ⟨h, rfl⟩⟩

lemma frontCall?_eq_none_iff {s : List Char} : frontCall? s = none ↔ ¬ Begins s := by
  constructor
  · rintro h ⟨call, rest, rfl, hcall⟩
    obtain ⟨wrapper, shape, name, hfound, -⟩ := frontCall?_complete hcall rest
    rw [h] at hfound
    cases hfound
  · intro h
    rw [Option.eq_none_iff_forall_ne_some]
    rintro ⟨wrapper, shape, name⟩ hfound
    obtain ⟨hname, rest, rfl, -⟩ := frontCall?_sound hfound
    exact h ⟨_, rest, rfl, isCall_wrapChars hname wrapper shape⟩

lemma isPrefixOf?_components_name {name : List Char} (h : IsName name) :
    components.isPrefixOf? name = none := by
  apply isPrefixOf?_eq_none
  intro tail htail
  have hdot := h.2 '.' (by simp [htail, components_eq])
  cases hdot

/-- A whole call is found with the parts it was written from, so it is written in one way. -/
theorem frontCall?_wrapChars {name : List Char} (h : IsName name) (wrapper : Wrapper)
    (shape : Shape) : frontCall? (wrapChars wrapper shape name) = some (wrapper, shape, name) := by
  have hend : EndsName [] := by
    intro c hc
    simp at hc
  have hname : frontName? name = some name := by
    simpa using frontName?_of_endsName h hend
  rw [wrapChars, frontCall?_opening]
  cases shape with
  | member => rw [Shape.operand, frontOperand?_member hname, Option.map_some]
  | literal =>
    have hliteral := frontOperand?_literal h []
    rw [List.append_nil] at hliteral
    rw [hliteral, Option.map_some]
  | ident =>
    have hliteral := frontLiteral?_name h []
    rw [List.append_nil] at hliteral
    simp [Shape.operand, frontOperand?, isPrefixOf?_components_name h, hliteral, hname]

/-- The grammar is unambiguous. -/
theorem Derives.unique {w w' : Wrapper} {s s' : Shape} {n n' text : List Char}
    (h : Derives w s n text) (h' : Derives w' s' n' text) : w = w' ∧ s = s' ∧ n = n' := by
  obtain ⟨hn, rfl⟩ := derives_iff.mp h
  obtain ⟨hn', htext⟩ := derives_iff.mp h'
  have hfound := frontCall?_wrapChars hn w s
  rw [htext, frontCall?_wrapChars hn' w' s'] at hfound
  simpa [eq_comm] using hfound

/-! ### The name in a call -/

lemma stripOpening_append (wrapper : Wrapper) (s : List Char) :
    stripOpening (wrapper.opening ++ s) = s := by
  have hown := isPrefixOf?_append wrapper.opening s
  cases wrapper with
  | multi => simp only [stripOpening, hown]
  | single =>
    simp only [stripOpening, multi_isPrefixOf?_single s, hown, Option.getD_some]

lemma unquote?_of_ne {c : Char} (hc : c ≠ '"') (s : List Char) : unquote? (c :: s) = none := by
  unfold unquote?
  split
  · rename_i heq
    exact absurd (List.cons.inj heq).1 hc
  · rfl

lemma unquote?_eq_some {s name : List Char} :
    unquote? s = some name ↔ s = '"' :: name ++ ['"'] := by
  constructor
  · intro h
    unfold unquote? at h
    split at h
    · rename_i rest
      split_ifs at h with hlast
      obtain rfl := Option.some.inj h
      rw [List.cons_append, List.dropLast_append_getLast? _ hlast]
    · cases h
  · rintro rfl
    simp [unquote?]

lemma operandName_member (name : List Char) : operandName (Shape.member.operand name) = name := by
  have hunquote : unquote? (components ++ name) = none := by
    rw [components_eq]
    exact unquote?_of_ne (by decide) _
  simp [Shape.operand, operandName, hunquote, isPrefixOf?_append]

lemma operandName_literal (name : List Char) :
    operandName (Shape.literal.operand name) = name := by
  have hunquote : unquote? (Shape.literal.operand name) = some name := unquote?_eq_some.mpr rfl
  rw [operandName, hunquote]

lemma operandName_operand {name : List Char} (h : IsName name) (shape : Shape) :
    operandName (shape.operand name) = name := by
  cases shape with
  | member => exact operandName_member name
  | literal => exact operandName_literal name
  | ident =>
    obtain ⟨c, rest, rfl⟩ := List.exists_cons_of_ne_nil h.1
    have hunquote : unquote? (c :: rest) = none := unquote?_of_ne h.head_ne_quote rest
    simp [Shape.operand, operandName, hunquote, isPrefixOf?_components_name h]

theorem normalizeChars_wrapChars {name : List Char} (h : IsName name) (wrapper : Wrapper)
    (shape : Shape) : normalizeChars (wrapChars wrapper shape name) = name := by
  rw [normalizeChars, wrapChars, stripOpening_append, operandName_operand h]

end PuzzleGate.Call
