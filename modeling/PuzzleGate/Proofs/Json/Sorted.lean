import Mathlib.Data.List.Induction
import PuzzleGate.Proofs.Fold
import PuzzleGate.Proofs.Json.Value
import PuzzleGate.Proofs.Lookup

/-!
# Written values are parsed with their keys in order

Reading puts the fields of every object in the order of their keys. What is parsed from the text of
a value is therefore the value with all its fields in order, and under each key stands what was
written there. A value that has its keys in order is parsed as it was.
-/

namespace PuzzleGate.Json

lemma setField_append {fields : List (String × Value)} {key : String}
    (h : ∀ field ∈ fields, field.1 < key) (value : Value) :
    setField key value fields = fields ++ [(key, value)] := by
  induction fields with
  | nil => rfl
  | cons field fields ih =>
    obtain ⟨k, v⟩ := field
    have hlt : k < key := h (k, v) (List.mem_cons_self ..)
    have hne : key ≠ k := fun heq => String.lt_irrefl k (heq ▸ hlt)
    rw [setField, if_neg (String.lt_asymm hlt), if_neg hne,
      ih fun field hfield => h field (List.mem_cons_of_mem _ hfield)]
    rfl

lemma orderFields_of_pairwise {fields : List (String × Value)}
    (h : (fields.map Prod.fst).Pairwise (· < ·)) : orderFields fields = fields :=
  foldl_of_pairwise (fun _ field hbehind => setField_append hbehind field.2)
    (List.pairwise_map.mp h)

lemma lookup_setField (key other : String) (value : Value) (fields : List (String × Value)) :
    (setField key value fields).lookup other =
      if other = key then some value else fields.lookup other := by
  induction fields with
  | nil => exact lookup_cons_eq_if key other value []
  | cons field fields ih =>
    obtain ⟨key', old⟩ := field
    rw [setField]
    split
    · exact lookup_cons_eq_if key other value _
    · split
      · rename_i heq
        subst heq
        rw [lookup_cons_eq_if, lookup_cons_eq_if]
        by_cases hother : other = key <;> simp [hother]
      · rename_i hne
        rw [lookup_cons_eq_if, lookup_cons_eq_if, ih]
        by_cases hother : other = key'
        · subst hother
          rw [if_pos rfl, if_neg (Ne.symm hne), if_pos rfl]
        · rw [if_neg hother, if_neg hother]

theorem lookup_orderFields {fields : List (String × Value)} (h : (fields.map Prod.fst).Nodup)
    (key : String) : (orderFields fields).lookup key = fields.lookup key := by
  induction fields using List.reverseRecOn with
  | nil => rfl
  | append_singleton fields field ih =>
    obtain ⟨last, value⟩ := field
    rw [List.map_append, List.map_singleton, List.nodup_append] at h
    obtain ⟨hfields, -, hlast⟩ := h
    have hordered : orderFields (fields ++ [(last, value)]) =
        setField last value (orderFields fields) := by
      rw [orderFields, List.foldl_append]
      rfl
    rw [hordered, lookup_setField, ih hfields, List.lookup_append, lookup_cons_eq_if]
    by_cases hkey : key = last
    · have hnew : key ∉ fields.map Prod.fst := fun hmem =>
        hlast key hmem last (List.mem_singleton_self last) hkey
      rw [lookup_eq_none_of_not_mem hnew, if_pos hkey, if_pos hkey, Option.none_or]
    · rw [if_neg hkey, if_neg hkey, List.lookup_nil, Option.or_none]

mutual

/-- The value with the fields of all its objects in order. -/
def Value.sorted : Value → Value
  | .array items => .array (sortedItems items)
  | .object fields => .object (orderFields (sortedFields fields))
  | value => value

def sortedItems : List Value → List Value
  | [] => []
  | value :: rest => value.sorted :: sortedItems rest

def sortedFields : List (String × Value) → List (String × Value)
  | [] => []
  | (key, value) :: rest => (key, value.sorted) :: sortedFields rest

end

lemma sortedItems_eq_map (items : List Value) : sortedItems items = items.map Value.sorted := by
  induction items with
  | nil => rfl
  | cons value items ih => rw [sortedItems, ih, List.map_cons]

lemma sortedFields_eq_map (fields : List (String × Value)) :
    sortedFields fields = fields.map fun field => (field.1, field.2.sorted) := by
  induction fields with
  | nil => rfl
  | cons field fields ih => rw [sortedFields, ih, List.map_cons]

lemma keys_sortedFields (fields : List (String × Value)) :
    (sortedFields fields).map Prod.fst = fields.map Prod.fst := by
  rw [sortedFields_eq_map, List.map_map]
  rfl

lemma lookup_sortedFields (key : String) (fields : List (String × Value)) :
    (sortedFields fields).lookup key = (fields.lookup key).map Value.sorted := by
  induction fields with
  | nil => rfl
  | cons field fields ih =>
    rw [sortedFields, lookup_cons_eq_if, ih, lookup_cons_eq_if]
    split <;> rfl

@[simp] lemma Value.sorted_array (items : List Value) :
    (Value.array items).sorted = .array (items.map Value.sorted) := by
  rw [Value.sorted, sortedItems_eq_map]

theorem Value.field?_sorted {fields : List (String × Value)} (h : (fields.map Prod.fst).Nodup)
    (key : String) :
    (Value.object fields).sorted.field? key = (fields.lookup key).map Value.sorted := by
  rw [← keys_sortedFields] at h
  rw [Value.sorted, Value.field?, lookup_orderFields h, lookup_sortedFields]

mutual

lemma Value.sorted_of_ordered : ∀ value : Value, value.Ordered → value.sorted = value
  | .null, _ => rfl
  | .bool _, _ => rfl
  | .number _, _ => rfl
  | .string _, _ => rfl
  | .array items, h => by rw [Value.sorted, sortedItems_of_ordered items h]
  | .object fields, h => by
    rw [Value.sorted, sortedFields_of_ordered fields h.2, orderFields_of_pairwise h.1]

lemma sortedItems_of_ordered : ∀ items : List Value, OrderedItems items →
    sortedItems items = items
  | [], _ => rfl
  | value :: items, h => by
    rw [sortedItems, value.sorted_of_ordered h.1, sortedItems_of_ordered items h.2]

lemma sortedFields_of_ordered : ∀ fields : List (String × Value), OrderedFields fields →
    sortedFields fields = fields
  | [], _ => rfl
  | (_, value) :: fields, h => by
    rw [sortedFields, value.sorted_of_ordered h.1, sortedFields_of_ordered fields h.2]

end

/-! ### Trees stand for sorted values -/

lemma value?_number {number : Number} (h : number.isWhole = true) (depth : Nat) :
    number.tree.value? depth = some (.number number) := by
  cases number with
  | natural n bounded =>
    have hnumber : wholeNumber? false n = some (.natural n bounded) := dif_pos bounded
    rw [Number.tree, Tree.value?, number?_ofNat bounded hnumber]
    rfl
  | negative n bounded =>
    have hnumber : wholeNumber? true (n + 1) = some (.negative n bounded) :=
      dif_pos ⟨Nat.succ_pos n, bounded⟩
    rw [Number.tree, Tree.value?, number?_ofNat (by omega) hnumber]
    rfl
  | real x => cases h

mutual

/-- The tree of a value stands for the sorted value, at every depth that it fits in. -/
theorem value?_tree_sorted : ∀ (value : Value) (depth : Nat), value.isWhole = true →
    value.depth ≤ depth → value.tree.value? depth = some value.sorted
  | .null, _, _, _ => rfl
  | .bool _, _, _, _ => rfl
  | .number _, depth, hwhole, _ => value?_number hwhole depth
  | .string _, _, _, _ => rfl
  | .array items, depth, hwhole, hdepth => by
    rw [Value.depth] at hdepth
    have hpositive : 0 < depth := by omega
    rw [Value.tree, Tree.value?, itemValues?_itemTrees items (depth - 1) hwhole (by omega)]
    simp [hpositive, Value.sorted]
  | .object fields, depth, hwhole, hdepth => by
    rw [Value.depth] at hdepth
    have hpositive : 0 < depth := by omega
    rw [Value.tree, Tree.value?, memberValues?_memberTrees fields (depth - 1) hwhole (by omega)]
    simp [hpositive, Value.sorted]

theorem itemValues?_itemTrees : ∀ (items : List Value) (depth : Nat), areWhole items = true →
    itemsDepth items ≤ depth → itemValues? depth (itemTrees items) = some (sortedItems items)
  | [], _, _, _ => rfl
  | value :: items, depth, hwhole, hdepth => by
    rw [areWhole, Bool.and_eq_true] at hwhole
    rw [itemsDepth, Nat.max_le] at hdepth
    rw [itemTrees, itemValues?, value?_tree_sorted value depth hwhole.1 hdepth.1,
      itemValues?_itemTrees items depth hwhole.2 hdepth.2]
    rfl

theorem memberValues?_memberTrees : ∀ (fields : List (String × Value)) (depth : Nat),
    areWholeFields fields = true → fieldsDepth fields ≤ depth →
      memberValues? depth (memberTrees fields) = some (sortedFields fields)
  | [], _, _, _ => rfl
  | (key, value) :: fields, depth, hwhole, hdepth => by
    rw [areWholeFields, Bool.and_eq_true] at hwhole
    rw [fieldsDepth, Nat.max_le] at hdepth
    rw [memberTrees, memberValues?, value?_tree_sorted value depth hwhole.1 hdepth.1,
      memberValues?_memberTrees fields depth hwhole.2 hdepth.2]
    rfl

end

/-- The tree of a value with its keys in order stands for the value itself. -/
theorem value?_tree (value : Value) (depth : Nat) (hwhole : value.isWhole = true)
    (hordered : value.Ordered) (hdepth : value.depth ≤ depth) :
    value.tree.value? depth = some value := by
  rw [value?_tree_sorted value depth hwhole hdepth, value.sorted_of_ordered hordered]

/-- The value has whole numbers only and at most so many levels of arrays and objects. -/
structure Value.Fits (depth : Nat) (value : Value) : Prop where
  isWhole : value.isWhole = true
  depth_le : value.depth ≤ depth

namespace Value.Fits

variable {depth deeper : Nat} {value : Value} {items : List Value} {fields : List (String × Value)}

lemma mono (h : value.Fits depth) (hle : depth ≤ deeper) : value.Fits deeper :=
  ⟨h.isWhole, h.depth_le.trans hle⟩

lemma string (s : String) : (Value.string s).Fits depth := ⟨rfl, Nat.zero_le _⟩

lemma bool (b : Bool) : (Value.bool b).Fits depth := ⟨rfl, Nat.zero_le _⟩

lemma array (h : ∀ item ∈ items, item.Fits depth) : (Value.array items).Fits (depth + 1) := by
  have hitems : areWhole items = true ∧ itemsDepth items ≤ depth := by
    induction items with
    | nil => exact ⟨rfl, Nat.zero_le _⟩
    | cons item items ih =>
      obtain ⟨hitem, hrest⟩ := List.forall_mem_cons.mp h
      obtain ⟨hwhole, hdepth⟩ := ih hrest
      exact ⟨by rw [areWhole, hitem.isWhole, hwhole]; rfl, Nat.max_le.mpr ⟨hitem.depth_le, hdepth⟩⟩
  exact ⟨hitems.1, Nat.succ_le_succ hitems.2⟩

lemma array_map {α : Type} {toJson : α → Value} (h : ∀ a, (toJson a).Fits depth) (as : List α) :
    (Value.array (as.map toJson)).Fits (depth + 1) := by
  refine Fits.array fun item hitem => ?_
  obtain ⟨a, -, rfl⟩ := List.mem_map.mp hitem
  exact h a

lemma object (h : ∀ field ∈ fields, field.2.Fits depth) :
    (Value.object fields).Fits (depth + 1) := by
  have hfields : areWholeFields fields = true ∧ fieldsDepth fields ≤ depth := by
    induction fields with
    | nil => exact ⟨rfl, Nat.zero_le _⟩
    | cons field fields ih =>
      obtain ⟨hfield, hrest⟩ := List.forall_mem_cons.mp h
      obtain ⟨hwhole, hdepth⟩ := ih hrest
      exact ⟨by rw [areWholeFields, hfield.isWhole, hwhole]; rfl,
        Nat.max_le.mpr ⟨hfield.depth_le, hdepth⟩⟩
  exact ⟨hfields.1, Nat.succ_le_succ hfields.2⟩

end Value.Fits

lemma parse?_eq_some {text : String} {value : Value} :
    parse? text = some value ↔
      ∃ tree, readTree text = (tree, true) ∧ tree.value? maxDepth = some value := by
  unfold parse?
  split
  · rename_i tree htree
    simp [htree]
  · rename_i tree htree
    simp [htree]

theorem parse?_text {value : Value} (h : value.Fits maxDepth) :
    parse? value.text = some value.sorted :=
  parse?_eq_some.mpr ⟨_, readTree_text h.isWhole, value?_tree_sorted value _ h.isWhole h.depth_le⟩

theorem parse?_pretty {value : Value} (h : value.Fits maxDepth) :
    parse? (value.pretty ++ "\n") = some value.sorted :=
  parse?_eq_some.mpr
    ⟨_, readTree_pretty h.isWhole, value?_tree_sorted value _ h.isWhole h.depth_le⟩

end PuzzleGate.Json
