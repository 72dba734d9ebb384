import PuzzleGate.Proofs.Json.Token
import PuzzleGate.Proofs.Json.Tree

/-!
# Written values are read back

A value is written on one line or over several ones, and both texts have the same tokens. As long
as its numbers are whole, either text is read as the same tree, in which nothing is missing.
-/

namespace PuzzleGate.Json

open Decimal

def Number.isWhole : Number → Bool
  | .real _ => false
  | _ => true

mutual

/-- All numbers in the value are whole. -/
def Value.isWhole : Value → Bool
  | .number n => n.isWhole
  | .array items => areWhole items
  | .object fields => areWholeFields fields
  | _ => true

def areWhole : List Value → Bool
  | [] => true
  | value :: rest => value.isWhole && areWhole rest

def areWholeFields : List (String × Value) → Bool
  | [] => true
  | (_, value) :: rest => value.isWhole && areWholeFields rest

end

mutual

/-- How deep arrays and objects are nested. -/
def Value.depth : Value → Nat
  | .array items => itemsDepth items + 1
  | .object fields => fieldsDepth fields + 1
  | _ => 0

def itemsDepth : List Value → Nat
  | [] => 0
  | value :: rest => max value.depth (itemsDepth rest)

def fieldsDepth : List (String × Value) → Nat
  | [] => 0
  | (_, value) :: rest => max value.depth (fieldsDepth rest)

end

/-- The tree of a whole number; other numbers have none here. -/
def Number.tree : Number → Tree
  | .natural n _ => .number (.ofNat false n)
  | .negative n _ => .number (.ofNat true (n + 1))
  | .real _ => .broken

mutual

/-- The tree that the text of a value is read as. -/
def Value.tree : Value → Tree
  | .null => .null
  | .bool b => .bool b
  | .number n => n.tree
  | .string s => .string (some s)
  | .array items => .array (itemTrees items) true
  | .object fields => .object (memberTrees fields) true

def itemTrees : List Value → List Tree
  | [] => []
  | value :: rest => value.tree :: itemTrees rest

def memberTrees : List (String × Value) → List (Option String × Tree)
  | [] => []
  | (key, value) :: rest => (some key, value.tree) :: memberTrees rest

end

lemma itemTrees_eq_map (items : List Value) : itemTrees items = items.map Value.tree := by
  induction items with
  | nil => rfl
  | cons value items ih => rw [itemTrees, ih, List.map_cons]

mutual

lemma isComplete_tree : ∀ value : Value, value.isWhole = true → value.tree.isComplete = true
  | .null, _ => rfl
  | .bool _, _ => rfl
  | .number (.natural ..), _ => rfl
  | .number (.negative ..), _ => rfl
  | .string _, _ => rfl
  | .array items, h => by
    rw [Value.tree, Tree.isComplete, areComplete_itemTrees items h]
    rfl
  | .object fields, h => by
    rw [Value.tree, Tree.isComplete, areCompleteMembers_memberTrees fields h]
    rfl

lemma areComplete_itemTrees : ∀ items : List Value, areWhole items = true →
    areComplete (itemTrees items) = true
  | [], _ => rfl
  | value :: items, h => by
    rw [areWhole, Bool.and_eq_true] at h
    rw [itemTrees, areComplete, isComplete_tree value h.1, areComplete_itemTrees items h.2]
    rfl

lemma areCompleteMembers_memberTrees : ∀ fields : List (String × Value),
    areWholeFields fields = true → areCompleteMembers (memberTrees fields) = true
  | [], _ => rfl
  | (_, value) :: fields, h => by
    rw [areWholeFields, Bool.and_eq_true] at h
    rw [memberTrees, areCompleteMembers, isComplete_tree value h.1,
      areCompleteMembers_memberTrees fields h.2]
    rfl

end

/-! ### The text on one line -/

lemma tokens_number {number : Number} (h : number.isWhole = true) {rest : List Char}
    (hrest : NumberEnds rest) :
    tokens (number.chars ++ rest) = number.tree.tokens ++ tokens rest := by
  cases number with
  | natural n bounded => exact tokens_natDigits n hrest
  | negative n bounded => exact tokens_negative (n + 1) hrest
  | real x => cases h

lemma numberEnds_moreItemsChars (items : List Value) (rest : List Char) :
    NumberEnds (moreItemsChars items ++ ']' :: rest) := by
  cases items with
  | nil => exact numberEnds_cons rfl (by decide)
  | cons value items => exact numberEnds_cons rfl (by decide)

lemma numberEnds_moreFieldsChars (fields : List (String × Value)) (rest : List Char) :
    NumberEnds (moreFieldsChars fields ++ '\x7d' :: rest) := by
  cases fields with
  | nil => exact numberEnds_cons rfl (by decide)
  | cons field fields => exact numberEnds_cons rfl (by decide)

mutual

theorem tokens_chars : ∀ (value : Value) (rest : List Char), value.isWhole = true →
    NumberEnds rest → tokens (value.chars ++ rest) = value.tree.tokens ++ tokens rest
  | .null, _, _, _ => rfl
  | .bool true, _, _, _ => rfl
  | .bool false, _, _, _ => rfl
  | .number _, _, hwhole, hrest => tokens_number hwhole hrest
  | .string s, rest, _, _ => tokens_stringChars s rest
  | .array [], _, _, _ => rfl
  | .array (value :: items), rest, hwhole, _ => by
    rw [Value.isWhole, areWhole, Bool.and_eq_true] at hwhole
    simp only [Value.chars, itemsChars, Value.tree, itemTrees, Tree.tokens, itemTokens,
      List.cons_append, List.append_assoc, List.nil_append, tokens_openArray]
    rw [tokens_chars value _ hwhole.1 (numberEnds_moreItemsChars items rest),
      tokens_moreItemsChars items rest hwhole.2]
  | .object [], _, _, _ => rfl
  | .object ((key, value) :: fields), rest, hwhole, _ => by
    rw [Value.isWhole, areWholeFields, Bool.and_eq_true] at hwhole
    simp only [Value.chars, fieldsChars, Value.tree, memberTrees, Tree.tokens, memberTokens,
      List.cons_append, List.append_assoc, List.nil_append, tokens_openObject, tokens_stringChars,
      tokens_colon]
    rw [tokens_chars value _ hwhole.1 (numberEnds_moreFieldsChars fields rest),
      tokens_moreFieldsChars fields rest hwhole.2]

theorem tokens_moreItemsChars : ∀ (items : List Value) (rest : List Char),
    areWhole items = true → tokens (moreItemsChars items ++ ']' :: rest) =
      moreItemTokens (itemTrees items) ++ .closeArray :: tokens rest
  | [], _, _ => rfl
  | value :: items, rest, hwhole => by
    rw [areWhole, Bool.and_eq_true] at hwhole
    simp only [moreItemsChars, itemTrees, moreItemTokens, List.cons_append, List.append_assoc,
      tokens_comma]
    rw [tokens_chars value _ hwhole.1 (numberEnds_moreItemsChars items rest),
      tokens_moreItemsChars items rest hwhole.2]

theorem tokens_moreFieldsChars : ∀ (fields : List (String × Value)) (rest : List Char),
    areWholeFields fields = true → tokens (moreFieldsChars fields ++ '\x7d' :: rest) =
      moreMemberTokens (memberTrees fields) ++ .closeObject :: tokens rest
  | [], _, _ => rfl
  | (key, value) :: fields, rest, hwhole => by
    rw [areWholeFields, Bool.and_eq_true] at hwhole
    simp only [moreFieldsChars, memberTrees, moreMemberTokens, List.cons_append,
      List.append_assoc, tokens_comma, tokens_stringChars, tokens_colon]
    rw [tokens_chars value _ hwhole.1 (numberEnds_moreFieldsChars fields rest),
      tokens_moreFieldsChars fields rest hwhole.2]

end

/-! ### The text over several lines -/

@[simp] lemma tokens_newLine (level : Nat) (rest : List Char) :
    tokens (newLine level ++ rest) = tokens rest := by
  apply tokens_spaces
  intro c hc
  rcases List.mem_cons.mp hc with rfl | hc
  · rfl
  · rw [List.eq_of_mem_replicate hc]
    rfl

lemma tokens_space (rest : List Char) : tokens (' ' :: rest) = tokens rest := rfl

lemma numberEnds_newLine (level : Nat) (rest : List Char) :
    NumberEnds (newLine level ++ rest) := numberEnds_cons rfl (by decide)

lemma numberEnds_prettyMoreItems (level : Nat) (items : List Value) (rest : List Char) :
    NumberEnds (prettyMoreItems (level + 1) items ++ (newLine level ++ rest)) := by
  cases items with
  | nil => exact numberEnds_newLine level rest
  | cons value items => exact numberEnds_cons rfl (by decide)

lemma numberEnds_prettyMoreFields (level : Nat) (fields : List (String × Value))
    (rest : List Char) :
    NumberEnds (prettyMoreFields (level + 1) fields ++ (newLine level ++ rest)) := by
  cases fields with
  | nil => exact numberEnds_newLine level rest
  | cons field fields => exact numberEnds_cons rfl (by decide)

mutual

theorem tokens_prettyChars : ∀ (value : Value) (level : Nat) (rest : List Char),
    value.isWhole = true → NumberEnds rest →
      tokens (value.prettyChars level ++ rest) = value.tree.tokens ++ tokens rest
  | .null, _, _, _, _ => rfl
  | .bool true, _, _, _, _ => rfl
  | .bool false, _, _, _, _ => rfl
  | .number _, _, _, hwhole, hrest => tokens_number hwhole hrest
  | .string s, _, rest, _, _ => tokens_stringChars s rest
  | .array [], _, _, _, _ => rfl
  | .array (value :: items), level, rest, hwhole, _ => by
    rw [Value.isWhole, areWhole, Bool.and_eq_true] at hwhole
    simp only [Value.prettyChars, Value.tree, itemTrees, Tree.tokens, itemTokens,
      List.cons_append, List.append_assoc, List.nil_append, tokens_openArray, tokens_newLine]
    rw [tokens_prettyChars value _ _ hwhole.1 (numberEnds_prettyMoreItems level items _),
      tokens_prettyMoreItems items level _ hwhole.2]
    rfl
  | .object [], _, _, _, _ => rfl
  | .object ((key, value) :: fields), level, rest, hwhole, _ => by
    rw [Value.isWhole, areWholeFields, Bool.and_eq_true] at hwhole
    simp only [Value.prettyChars, Value.tree, memberTrees, Tree.tokens, memberTokens,
      List.cons_append, List.append_assoc, List.nil_append, tokens_openObject, tokens_newLine,
      tokens_stringChars, tokens_colon, tokens_space]
    rw [tokens_prettyChars value _ _ hwhole.1 (numberEnds_prettyMoreFields level fields _),
      tokens_prettyMoreFields fields level _ hwhole.2]
    rfl

theorem tokens_prettyMoreItems : ∀ (items : List Value) (level : Nat) (rest : List Char),
    areWhole items = true →
      tokens (prettyMoreItems (level + 1) items ++ (newLine level ++ rest)) =
        moreItemTokens (itemTrees items) ++ tokens rest
  | [], level, rest, _ => tokens_newLine level rest
  | value :: items, level, rest, hwhole => by
    rw [areWhole, Bool.and_eq_true] at hwhole
    simp only [prettyMoreItems, itemTrees, moreItemTokens, List.cons_append, List.append_assoc,
      tokens_comma, tokens_newLine]
    rw [tokens_prettyChars value _ _ hwhole.1 (numberEnds_prettyMoreItems level items rest),
      tokens_prettyMoreItems items level rest hwhole.2]

theorem tokens_prettyMoreFields : ∀ (fields : List (String × Value)) (level : Nat)
    (rest : List Char), areWholeFields fields = true →
      tokens (prettyMoreFields (level + 1) fields ++ (newLine level ++ rest)) =
        moreMemberTokens (memberTrees fields) ++ tokens rest
  | [], level, rest, _ => tokens_newLine level rest
  | (key, value) :: fields, level, rest, hwhole => by
    rw [areWholeFields, Bool.and_eq_true] at hwhole
    simp only [prettyMoreFields, memberTrees, moreMemberTokens, List.cons_append,
      List.append_assoc, tokens_comma, tokens_newLine, tokens_stringChars, tokens_colon,
      tokens_space]
    rw [tokens_prettyChars value _ _ hwhole.1 (numberEnds_prettyMoreFields level fields rest),
      tokens_prettyMoreFields fields level rest hwhole.2]

end

theorem readTree_text {value : Value} (h : value.isWhole = true) :
    readTree value.text = (value.tree, true) := by
  have htokens := tokens_chars value [] h numberEnds_nil
  rw [List.append_nil] at htokens
  apply readTree_eq (isComplete_tree value h)
  rw [Value.text, String.toList_ofList, htokens]
  exact List.append_nil _

theorem readTree_pretty {value : Value} (h : value.isWhole = true) :
    readTree (value.pretty ++ "\n") = (value.tree, true) := by
  have htokens := tokens_prettyChars value 0 ['\n'] h (numberEnds_newLine 0 [])
  apply readTree_eq (isComplete_tree value h)
  rw [Value.pretty, String.toList_append, String.toList_ofList]
  exact htokens.trans (List.append_nil _)

end PuzzleGate.Json
