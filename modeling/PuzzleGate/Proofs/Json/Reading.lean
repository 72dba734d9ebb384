import Mathlib.Data.Option.Basic
import PuzzleGate.Proofs.Json.Decode
import PuzzleGate.Proofs.Json.Sorted

/-!
# Readers and values

A tree that stands for a value is read as text or as a list exactly when the value is of this kind,
and what is read is what the value holds. Under a key of an object stands the value of the tree
that the key was given with: putting the fields in order does not change this, as long as no key is
given twice.
-/

namespace PuzzleGate.Json

open Reading

variable {α : Type} {tree : Tree} {value : Value} {depth : Nat}

/-- The tree stands for the value, however deep it is nested. -/
def Tree.StandsFor (tree : Tree) (value : Value) : Prop := ∃ depth, tree.value? depth = some value

/-- A tree that stands for a value, taken apart together with the value. -/
inductive Tree.View : Tree → Value → Prop
  | null : View .null .null
  | bool (b : Bool) : View (.bool b) (.bool b)
  | number (numeral : Numeral) (number : Number) : View (.number numeral) (.number number)
  | string (s : String) : View (.string (some s)) (.string s)
  | array {items : List Tree} {values : List Value}
    (h : List.Forall₂ Tree.StandsFor items values) : View (.array items true) (.array values)
  | object {members : List (Option String × Tree)} {fields : List (String × Value)}
    (h : List.Forall₂ (fun member field => member.1 = some field.1 ∧ member.2.StandsFor field.2)
      members fields) : View (.object members true) (.object (orderFields fields))

lemma forall₂_of_itemValues? {items : List Tree} {values : List Value}
    (h : itemValues? depth items = some values) :
    List.Forall₂ Tree.StandsFor items values := by
  induction items generalizing values with
  | nil =>
    obtain rfl := Option.some.inj h
    exact .nil
  | cons tree items ih =>
    obtain ⟨value, hvalue, htail⟩ := Option.bind_eq_some_iff.mp h
    obtain ⟨rest, hrest, hvalues⟩ := Option.bind_eq_some_iff.mp htail
    obtain rfl := Option.some.inj hvalues
    exact .cons ⟨depth, hvalue⟩ (ih hrest)

lemma forall₂_of_memberValues? {members : List (Option String × Tree)}
    {fields : List (String × Value)} (h : memberValues? depth members = some fields) :
    List.Forall₂ (fun member field => member.1 = some field.1 ∧ member.2.StandsFor field.2)
      members fields := by
  induction members generalizing fields with
  | nil =>
    obtain rfl := Option.some.inj h
    exact .nil
  | cons member members ih =>
    obtain ⟨key, hkey, hmember⟩ := Option.bind_eq_some_iff.mp h
    obtain ⟨value, hvalue, htail⟩ := Option.bind_eq_some_iff.mp hmember
    obtain ⟨rest, hrest, hfields⟩ := Option.bind_eq_some_iff.mp htail
    obtain rfl := Option.some.inj hfields
    exact .cons ⟨hkey, depth, hvalue⟩ (ih hrest)

theorem Tree.StandsFor.view (h : tree.StandsFor value) : tree.View value := by
  obtain ⟨depth, h⟩ := h
  cases tree with
  | null =>
    obtain rfl := Option.some.inj h
    exact .null
  | bool b =>
    obtain rfl := Option.some.inj h
    exact .bool b
  | number numeral =>
    obtain ⟨number, -, rfl⟩ := Option.map_eq_some_iff.mp h
    exact .number numeral number
  | string s =>
    obtain ⟨found, rfl, rfl⟩ := Option.map_eq_some_iff.mp h
    exact .string found
  | array items closed =>
    rw [Tree.value?, Option.ite_none_right_eq_some, Bool.and_eq_true] at h
    obtain ⟨⟨rfl, -⟩, h⟩ := h
    obtain ⟨values, hvalues, rfl⟩ := Option.map_eq_some_iff.mp h
    exact .array (forall₂_of_itemValues? hvalues)
  | object members closed =>
    rw [Tree.value?, Option.ite_none_right_eq_some, Bool.and_eq_true] at h
    obtain ⟨⟨rfl, -⟩, h⟩ := h
    obtain ⟨fields, hfields, rfl⟩ := Option.map_eq_some_iff.mp h
    exact .object (forall₂_of_memberValues? hfields)
  | broken => cases h

lemma value?_eq_string {text : String} :
    tree.value? depth = some (.string text) ↔ tree = .string (some text) := by
  cases tree <;> simp [Tree.value?]

/-- The reader takes the values of one form: what it reads is what the value is made of. -/
def Reads (read : Tree → Except Problem α) (form : α → Value) : Prop :=
  ∀ tree value a, tree.StandsFor value → (read tree = .ok a ↔ value = form a)

lemma reads_asString : Reads Tree.asString .string := by
  intro tree value text h
  cases h.view <;> simp [Tree.asString]

lemma asOption_eq_ok (h : tree.StandsFor value) {read : Tree → Except Problem α}
    {found : Option α} : tree.asOption read = .ok found ↔
      (value = .null ∧ found = none) ∨
        (value ≠ .null ∧ ∃ a, read tree = .ok a ∧ some a = found) := by
  cases h.view with
  | null => simp [Tree.asOption, eq_comm]
  | _ => simp [Tree.asOption, map_eq_ok]

section Items

variable {read : Tree → Except Problem α} {form : α → Value} (hread : Reads read form)

include hread

lemma forall₂_read_iff {items : List Tree} {values : List Value}
    (h : List.Forall₂ Tree.StandsFor items values) {found : List α} :
    List.Forall₂ (fun item a => read item = .ok a) items found ↔
      List.Forall₂ (fun value a => value = form a) values found := by
  induction h generalizing found with
  | nil => rw [List.forall₂_nil_left_iff, List.forall₂_nil_left_iff]
  | cons hitem hrest ih =>
    rw [List.forall₂_cons_left_iff, List.forall₂_cons_left_iff]
    simp only [hread _ _ _ hitem, ih]

theorem reads_asList :
    Reads (Tree.asList read) fun found : List α => .array (found.map form) := by
  intro tree value found h
  cases h.view with
  | array hvalues =>
    rename_i items values
    have hitems : (Tree.array items true).asList read = items.mapM read := bind_pure _
    rw [hitems, mapM_eq_ok, forall₂_read_iff hread hvalues, Value.array.injEq,
      ← List.forall₂_eq_eq_eq, List.forall₂_map_right_iff]
  | _ => simp [Tree.asList]

end Items

lemma rel_lookup {members : List (Option String × Tree)} {fields : List (String × Value)}
    (h : List.Forall₂ (fun member field => member.1 = some field.1 ∧ member.2.StandsFor field.2)
      members fields) (key : String) :
    Option.Rel Tree.StandsFor (members.lookup (some key)) (fields.lookup key) := by
  induction h with
  | nil => exact .none
  | cons hmember hrest ih =>
    rename_i member field members fields
    obtain ⟨name, tree⟩ := member
    obtain ⟨hname, htree⟩ := hmember
    obtain rfl : name = some field.1 := hname
    rw [lookup_cons_eq_if, lookup_cons_eq_if]
    by_cases hkey : key = field.1
    · rw [if_pos hkey, if_pos (congrArg some hkey)]
      exact .some htree
    · rw [if_neg hkey, if_neg fun heq => hkey (Option.some.inj heq)]
      exact ih

lemma keys_eq {members : List (Option String × Tree)} {fields : List (String × Value)}
    (h : List.Forall₂ (fun member field => member.1 = some field.1 ∧ member.2.StandsFor field.2)
      members fields) : members.map Prod.fst = (fields.map Prod.fst).map some := by
  rw [← List.forall₂_eq_eq_eq, List.map_map, List.forall₂_map_left_iff,
    List.forall₂_map_right_iff]
  exact h.imp fun _ _ hmember => hmember.1

section Members

variable {members : List (Option String × Tree)} {closed : Bool}
  (h : (Tree.object members closed).StandsFor value)

include h

lemma closed_and_keys : closed = true ∧ none ∉ members.map Prod.fst := by
  cases h.view with
  | object hmembers => simp [keys_eq hmembers]

theorem rel_field? (hnodup : (members.map Prod.fst).Nodup) (key : String) :
    Option.Rel Tree.StandsFor (members.lookup (some key)) (value.field? key) := by
  cases h.view with
  | object hmembers =>
    rw [keys_eq hmembers] at hnodup
    rw [Value.field?, lookup_orderFields (List.Nodup.of_map _ hnodup)]
    exact rel_lookup hmembers key

end Members

end PuzzleGate.Json
