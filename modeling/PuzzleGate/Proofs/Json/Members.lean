import PuzzleGate.Proofs.Json.Decode
import PuzzleGate.Proofs.Lookup

/-!
# Records that are read member by member

A record is read from the members of an object one after the other, and each member sets at most one
of its fields. Which record is read depends only on the trees under the keys of the fields: a field
is set by the one tree under its key, and an object that gives the key again is not read.
-/

namespace PuzzleGate.Json

open Reading

variable {α : Type} {members : List (Option String × Tree)} {key name : String} {tree : Tree}

def treesUnder (key : String) (members : List (Option String × Tree)) : List Tree :=
  (members.filter fun member => member.1 == some key).map Prod.snd

@[simp] lemma treesUnder_nil : treesUnder key [] = [] := rfl

lemma treesUnder_cons : treesUnder key ((some name, tree) :: members) =
    (if key = name then [tree] else []) ++ treesUnder key members := by
  by_cases hkey : key = name
  · subst hkey
    simp [treesUnder]
  · have hname : ¬ name = key := Ne.symm hkey
    simp [treesUnder, hkey, hname]

lemma mem_treesUnder (h : (some key, tree) ∈ members) : tree ∈ treesUnder key members :=
  List.mem_map.mpr ⟨(some key, tree), List.mem_filter.mpr ⟨h, beq_self_eq_true _⟩, rfl⟩

lemma treesUnder_of_nodup (h : (members.map Prod.fst).Nodup) (key : String) :
    treesUnder key members = (members.lookup (some key)).toList := by
  rw [treesUnder]
  cases hlookup : members.lookup (some key) with
  | none =>
    rw [List.lookup_eq_none_iff] at hlookup
    rw [List.filter_eq_nil_iff.mpr fun member hmember hkey => ?_]
    · rfl
    · simpa [eq_of_beq hkey] using hlookup member hmember
  | some tree =>
    rw [filter_key_eq h hlookup]
    rfl

section Fields

variable {read : Tree → Except Problem α} {before after : Option α} {first second trees : List Tree}

/-- A field before and after reading on, by the trees that are met under its key: the field must not
have a value when there is a tree, and gets the one that is read. -/
def SetsField (read : Tree → Except Problem α) (before after : Option α) : List Tree → Prop
  | [] => before = after
  | [tree] => before = none ∧ ∃ a, read tree = .ok a ∧ some a = after
  | _ :: _ :: _ => False

/-- Reading on in two parts is reading on once: what one part sets is not set by the other. -/
lemma setsField_append : SetsField read before after (first ++ second) ↔
    ∃ between, SetsField read before between first ∧ SetsField read between after second := by
  match first, second with
  | [], second => simp [SetsField]
  | [tree], [] => simp [SetsField]
  | [tree], [_] => simp [SetsField]
  | [tree], _ :: _ :: _ => simp [SetsField]
  | _ :: _ :: _, second => simp [SetsField]

lemma setsField_none_some {a : α} :
    SetsField read none (some a) trees ↔ ∃ tree, trees = [tree] ∧ read tree = .ok a := by
  match trees with
  | [] => simp [SetsField]
  | [tree] => simp [SetsField]
  | _ :: _ :: _ => simp [SetsField]

lemma exists_setsField_none : (∃ after, SetsField read none after trees) ↔
    trees = [] ∨ ∃ tree, trees = [tree] ∧ ∃ a, read tree = .ok a := by
  match trees with
  | [] => simp [SetsField]
  | [tree] => simp [SetsField]
  | _ :: _ :: _ => simp [SetsField]

lemma SetsField.exists_of_mem (h : SetsField read before after trees) (htree : tree ∈ trees) :
    ∃ a, read tree = .ok a ∧ after = some a := by
  match trees with
  | [] => cases htree
  | [_] =>
    obtain rfl := List.mem_singleton.mp htree
    obtain ⟨-, a, ha, hafter⟩ := h
    exact ⟨a, ha, hafter.symm⟩
  | _ :: _ :: _ => cases h

end Fields

section Records

variable {δ : Type} {take : δ → String → Tree → Except Problem δ}
  {sets : δ → δ → (String → List Tree) → Prop} {before after : δ} {closed : Bool}

/-- How a record under construction is read on, by the trees that are met under each key. A member
is one tree under its key, and what is met in two parts can be read in two parts. -/
structure ReadsOn (take : δ → String → Tree → Except Problem δ)
    (sets : δ → δ → (String → List Tree) → Prop) : Prop where
  nothing {before after : δ} : sets before after (fun _ => []) ↔ before = after
  parts {before after : δ} {first second : String → List Tree} :
    sets before after (fun key => first key ++ second key) ↔
      ∃ between, sets before between first ∧ sets between after second
  member {before after : δ} {name : String} {tree : Tree} : take before name tree = .ok after ↔
    sets before after fun key => if key = name then [tree] else []

/-- The members of an object are read as what is met under each key, if the object has its end and
all keys are text. -/
theorem ReadsOn.foldMembers_eq_ok (h : ReadsOn take sets) :
    Tree.foldMembers take before members closed = .ok after ↔
      closed = true ∧ none ∉ members.map Prod.fst ∧
        sets before after fun key => treesUnder key members := by
  induction members generalizing before with
  | nil => simp [foldMembers_nil_eq_ok, h.nothing]
  | cons member members ih =>
    obtain ⟨name?, tree⟩ := member
    cases name? with
    | none => simp [foldMembers_cons_eq_ok]
    | some name =>
      simp only [foldMembers_cons_eq_ok, ih, treesUnder_cons, h.parts, ← h.member]
      constructor
      · rintro ⟨_, next, hname, hnext, hclosed, hkeys, hrest⟩
        obtain rfl := Option.some.inj hname
        exact ⟨hclosed, by simpa using hkeys, next, hnext, hrest⟩
      · rintro ⟨hclosed, hkeys, next, hnext, hrest⟩
        exact ⟨name, next, rfl, hnext, hclosed, by simpa using hkeys, hrest⟩

end Records

end PuzzleGate.Json
