import Mathlib.Data.List.Basic
import PuzzleGate.Json.Decode
import PuzzleGate.Proofs.Stages

/-!
# Records that can be read

A text gives a record when the reader takes its tree and nothing is left of the text. An object
gives one when the reader takes its members one after the other, and each field of the record is set
by one member at most.
-/

namespace PuzzleGate.Json

open Reading

variable {α : Type}

lemma requireClosed_eq_ok {closed : Bool} {u : Unit} :
    requireClosed closed = .ok u ↔ closed = true := by
  cases closed <;> simp [requireClosed]

lemma setOnce_eq_ok {name : String} {before after : Option α} {value : Except Problem α} :
    setOnce name before value = .ok after ↔
      before = none ∧ ∃ a, value = .ok a ∧ some a = after := by
  rw [setOnce]
  cases before with
  | none => simp [map_eq_ok]
  | some a => simp

lemma require_eq_ok {name : String} {field : Option α} {value : α} :
    require name field = .ok value ↔ field = some value := by
  cases field <;> simp [require]

lemma asString_eq_ok {tree : Tree} {text : String} :
    tree.asString = .ok text ↔ tree = .string (some text) := by
  cases tree with
  | string found => cases found <;> simp [Tree.asString]
  | _ => simp [Tree.asString]

lemma asList_eq_ok {read : Tree → Except Problem α} {tree : Tree} {found : List α} :
    tree.asList read = .ok found ↔ ∃ items, tree = .array items true ∧
      List.Forall₂ (fun item a => read item = .ok a) items found := by
  cases tree with
  | array items closed =>
    simp only [Tree.asList, bind_eq_ok, pure_eq_ok, requireClosed_eq_ok, mapM_eq_ok]
    constructor
    · rintro ⟨values, hvalues, -, rfl, rfl⟩
      exact ⟨items, rfl, hvalues⟩
    · rintro ⟨_, htree, hfound⟩
      obtain ⟨rfl, rfl⟩ := Tree.array.inj htree
      exact ⟨found, hfound, (), rfl, rfl⟩
  | _ => simp [Tree.asList]

theorem decode_eq_ok {read : Tree → Except Problem α} {text : String} {value : α} :
    decode read text = .ok value ↔
      ∃ tree, readTree text = (tree, true) ∧ read tree = .ok value := by
  rw [decode]
  simp only [bind_eq_ok, pure_eq_ok, requireClosed_eq_ok]
  constructor
  · rintro ⟨found, hread, -, hfinished, rfl⟩
    exact ⟨(readTree text).1, Prod.ext rfl hfinished, hread⟩
  · rintro ⟨tree, htree, hread⟩
    rw [htree]
    exact ⟨value, hread, (), rfl, rfl⟩

variable {take : α → String → Tree → Except Problem α} {draft result : α}

lemma foldMembers_nil_eq_ok {closed : Bool} :
    Tree.foldMembers take draft [] closed = .ok result ↔ closed = true ∧ draft = result := by
  rw [Tree.foldMembers, List.foldlM_nil]
  simp only [bind_eq_ok, pure_eq_ok, requireClosed_eq_ok]
  constructor
  · rintro ⟨last, rfl, -, hclosed, rfl⟩
    exact ⟨hclosed, rfl⟩
  · rintro ⟨hclosed, rfl⟩
    exact ⟨draft, rfl, (), hclosed, rfl⟩

lemma foldMembers_cons_eq_ok {member : Option String × Tree}
    {members : List (Option String × Tree)} {closed : Bool} :
    Tree.foldMembers take draft (member :: members) closed = .ok result ↔
      ∃ key next, member.1 = some key ∧ take draft key member.2 = .ok next ∧
        Tree.foldMembers take next members closed = .ok result := by
  rw [Tree.foldMembers, List.foldlM_cons]
  simp only [Tree.foldMembers, bind_eq_ok, pure_eq_ok]
  obtain ⟨key, tree⟩ := member
  cases key with
  | none => simp
  | some key =>
    constructor
    · rintro ⟨last, ⟨next, hnext, hlast⟩, hrest⟩
      exact ⟨key, next, rfl, hnext, last, hlast, hrest⟩
    · rintro ⟨_, next, hkey, hnext, last, hlast, hrest⟩
      obtain rfl := Option.some.inj hkey
      exact ⟨last, ⟨next, hnext, hlast⟩, hrest⟩

end PuzzleGate.Json
