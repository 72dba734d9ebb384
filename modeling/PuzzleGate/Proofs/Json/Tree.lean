import Mathlib.Data.List.Basic
import PuzzleGate.Json.Tree

/-!
# A tree is put together from its tokens

A complete tree has a token for each of its leaves and brackets, with commas and colons between
them. The stack machine that reads tokens puts the tree together again, whatever is open around it.
-/

namespace PuzzleGate.Json

mutual

/-- Every array and object of the tree is closed, and no value is missing. -/
def Tree.isComplete : Tree → Bool
  | .array items closed => closed && areComplete items
  | .object members closed => closed && areCompleteMembers members
  | .broken => false
  | _ => true

def areComplete : List Tree → Bool
  | [] => true
  | tree :: rest => tree.isComplete && areComplete rest

def areCompleteMembers : List (Option String × Tree) → Bool
  | [] => true
  | (_, tree) :: rest => tree.isComplete && areCompleteMembers rest

end

mutual

/-- The tokens that a complete tree is read from. -/
def Tree.tokens : Tree → List Token
  | .null => [.null]
  | .bool b => [.bool b]
  | .number n => [.number n]
  | .string s => [.string s]
  | .array items _ => .openArray :: (itemTokens items ++ [.closeArray])
  | .object members _ => .openObject :: (memberTokens members ++ [.closeObject])
  | .broken => []

def itemTokens : List Tree → List Token
  | [] => []
  | tree :: rest => tree.tokens ++ moreItemTokens rest

def moreItemTokens : List Tree → List Token
  | [] => []
  | tree :: rest => .comma :: (tree.tokens ++ moreItemTokens rest)

def memberTokens : List (Option String × Tree) → List Token
  | [] => []
  | (key, tree) :: rest => .string key :: .colon :: (tree.tokens ++ moreMemberTokens rest)

def moreMemberTokens : List (Option String × Tree) → List Token
  | [] => []
  | (key, tree) :: rest =>
    .comma :: .string key :: .colon :: (tree.tokens ++ moreMemberTokens rest)

end

lemma build_step {state next : State} {token : Token} (h : state.step token = some next)
    (rest : List Token) : build state (token :: rest) = build next rest := by
  rw [build, h]

/-- Where an array may also end, its first item is read like any other. -/
lemma build_valueOrClose {tree : Tree} (h : tree.isComplete = true) (before : List Tree)
    (stack : List Frame) (rest : List Token) :
    build (.reading (.items before :: stack) .valueOrClose) (tree.tokens ++ rest) =
      build (.reading (.items before :: stack) .value) (tree.tokens ++ rest) := by
  cases tree with
  | broken => cases h
  | _ => rfl

mutual

/-- The tokens of a complete tree are put together to this tree. -/
theorem build_tokens : ∀ (tree : Tree) (stack : List Frame) (rest : List Token),
    tree.isComplete = true →
      build (.reading stack .value) (tree.tokens ++ rest) = build (.put tree stack) rest
  | .null, stack, rest, _ => rfl
  | .bool b, stack, rest, _ => rfl
  | .number n, stack, rest, _ => rfl
  | .string s, stack, rest, _ => rfl
  | .array [] closed, stack, rest, h => by
    rw [Tree.isComplete, Bool.and_eq_true] at h
    obtain ⟨rfl, -⟩ := h
    rfl
  | .array (tree :: items) closed, stack, rest, h => by
    rw [Tree.isComplete, Bool.and_eq_true, areComplete, Bool.and_eq_true] at h
    obtain ⟨rfl, htree, hitems⟩ := h
    simp only [Tree.tokens, itemTokens, List.cons_append, List.append_assoc, List.nil_append]
    rw [build_step rfl, build_valueOrClose htree, build_tokens tree _ _ htree]
    exact build_moreItemTokens items [tree] stack rest hitems
  | .object [] closed, stack, rest, h => by
    rw [Tree.isComplete, Bool.and_eq_true] at h
    obtain ⟨rfl, -⟩ := h
    rfl
  | .object ((key, tree) :: members) closed, stack, rest, h => by
    rw [Tree.isComplete, Bool.and_eq_true, areCompleteMembers, Bool.and_eq_true] at h
    obtain ⟨rfl, htree, hmembers⟩ := h
    simp only [Tree.tokens, memberTokens, List.cons_append, List.append_assoc, List.nil_append]
    rw [build_step rfl, build_step rfl, build_step rfl, build_tokens tree _ _ htree]
    exact build_moreMemberTokens members [(key, tree)] stack rest hmembers
  | .broken, _, _, h => by cases h

theorem build_moreItemTokens : ∀ (items before : List Tree) (stack : List Frame)
    (rest : List Token), areComplete items = true →
      build (.reading (.items before :: stack) .commaOrClose)
        (moreItemTokens items ++ .closeArray :: rest) =
        build (.put (.array (before.reverse ++ items) true) stack) rest
  | [], before, stack, rest, _ => by
    rw [List.append_nil]
    rfl
  | tree :: items, before, stack, rest, h => by
    rw [areComplete, Bool.and_eq_true] at h
    simp only [moreItemTokens, List.cons_append, List.append_assoc]
    have hmore := build_moreItemTokens items (tree :: before) stack rest h.2
    rw [List.reverse_cons, List.append_assoc] at hmore
    rw [build_step rfl, build_tokens tree _ _ h.1]
    exact hmore

theorem build_moreMemberTokens : ∀ (members before : List (Option String × Tree))
    (stack : List Frame) (rest : List Token), areCompleteMembers members = true →
      build (.reading (.members before :: stack) .commaOrClose)
        (moreMemberTokens members ++ .closeObject :: rest) =
        build (.put (.object (before.reverse ++ members) true) stack) rest
  | [], before, stack, rest, _ => by
    rw [List.append_nil]
    rfl
  | (key, tree) :: members, before, stack, rest, h => by
    rw [areCompleteMembers, Bool.and_eq_true] at h
    simp only [moreMemberTokens, List.cons_append, List.append_assoc]
    have hmore := build_moreMemberTokens members ((key, tree) :: before) stack rest h.2
    rw [List.reverse_cons, List.append_assoc] at hmore
    rw [build_step rfl, build_step rfl, build_step rfl, build_tokens tree _ _ h.1]
    exact hmore

end

theorem readTree_eq {text : String} {tree : Tree} (h : tree.isComplete = true)
    (htext : Json.tokens text.toList = tree.tokens) : readTree text = (tree, true) := by
  have hbuild := build_tokens tree [] [] h
  rw [List.append_nil] at hbuild
  rw [readTree, htext, hbuild]
  rfl

end PuzzleGate.Json
