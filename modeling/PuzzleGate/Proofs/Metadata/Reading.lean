import PuzzleGate.Proofs.Address.Reading
import PuzzleGate.Proofs.Json.Members
import PuzzleGate.Proofs.Metadata

/-!
# The record as JSON text and as frontmatter

A record can be read from the text of an object, or be built from the value that the text stands
for. The reader knows nothing of null as an absent field, of an empty list of contributors or of
the author among them, and yet both agree but for the last: what is built is what is read and has
its author among its contributors.
-/

namespace PuzzleGate

open Json Reading

/-- The text of an object in which no key is given twice, and the value that it stands for. -/
def IsObjectText (text : String) (value : Value) : Prop :=
  ∃ members closed, readTree text = (.object members closed, true) ∧
    (members.map Prod.fst).Nodup ∧ (Tree.object members closed).StandsFor value

lemma isObjectText_sorted {fields : List (String × Value)}
    (hwhole : (Value.object fields).isWhole = true) (hkeys : (fields.map Prod.fst).Nodup) :
    IsObjectText (Value.object fields).text (Value.object fields).sorted := by
  have hfields := memberValues?_memberTrees fields _ hwhole le_rfl
  have hnames := keys_eq (forall₂_of_memberValues? hfields)
  rw [keys_sortedFields] at hnames
  refine ⟨memberTrees fields, true, readTree_text hwhole, ?_, _,
    value?_tree_sorted _ _ hwhole le_rfl⟩
  rw [hnames]
  exact List.Nodup.map (Option.some_injective _) hkeys

lemma isObjectText_text {fields : List (String × Value)}
    (hwhole : (Value.object fields).isWhole = true) (hordered : (Value.object fields).Ordered) :
    IsObjectText (Value.object fields).text (.object fields) := by
  have htext := isObjectText_sorted hwhole hordered.1.nodup
  rwa [Value.sorted_of_ordered _ hordered] at htext

lemma setsField_none_iff {α : Type} {read : Tree → Except Problem α} {form : α → Value}
    (hread : Reads read form) {found : Option Tree} {field : Option Value}
    (h : Option.Rel Tree.StandsFor found field) {a : α} :
    SetsField read none (some a) found.toList ↔ field = some (form a) := by
  cases h with
  | none => simp [SetsField]
  | some hvalue => simp [SetsField, hread _ _ _ hvalue]

lemma Address.reads_ofTree : Reads Address.ofTree fun address => .string address.text := by
  intro tree value address h
  rw [Address.ofTree_eq_ok, ← asString_eq_ok]
  exact reads_asString _ _ _ h

namespace Metadata

/-- A draft before and after reading on, by the trees that are met under each key. -/
@[mk_iff takes_iff]
structure Draft.Takes (before after : Draft) (found : String → List Tree) : Prop where
  author : SetsField Address.ofTree before.author after.author (found "author")
  contributors : SetsField (Tree.asList Address.ofTree) before.contributors after.contributors
    (found "contributors")
  adaptedFrom : SetsField (Tree.asOption Tree.asString) before.adaptedFrom after.adaptedFrom
    (found "adapted_from")

lemma Draft.take_eq_ok {before after : Draft} {key : String} {tree : Tree} :
    before.take key tree = .ok after ↔
      before.Takes after fun field => if field = key then [tree] else [] := by
  obtain ⟨author, contributors, adaptedFrom⟩ := before
  obtain ⟨author', contributors', adaptedFrom'⟩ := after
  rw [Draft.takes_iff, Draft.take]
  iterate 3
    split
    · rename_i hkey
      subst hkey
      simp only [bind_eq_ok, pure_eq_ok, setOnce_eq_ok, Draft.mk.injEq]
      grind [SetsField]
  grind [SetsField]

lemma Draft.takes_append {before after : Draft} {first second : String → List Tree} :
    before.Takes after (fun field => first field ++ second field) ↔
      ∃ between : Draft, before.Takes between first ∧ between.Takes after second := by
  simp only [Draft.takes_iff, setsField_append]
  constructor
  · rintro ⟨⟨author, hauthor, hauthor'⟩, ⟨contributors, hcontributors, hcontributors'⟩,
      source, hsource, hsource'⟩
    exact ⟨⟨author, contributors, source⟩, ⟨hauthor, hcontributors, hsource⟩,
      hauthor', hcontributors', hsource'⟩
  · rintro ⟨between, ⟨hauthor, hcontributors, hsource⟩, hauthor', hcontributors', hsource'⟩
    exact ⟨⟨_, hauthor, hauthor'⟩, ⟨_, hcontributors, hcontributors'⟩, _, hsource, hsource'⟩

lemma Draft.readsOn : ReadsOn Draft.take Draft.Takes where
  nothing {before after} := by
    rw [Draft.takes_iff]
    cases before
    cases after
    simp [SetsField]
  parts := Draft.takes_append
  member := Draft.take_eq_ok

variable {members : List (Option String × Tree)} {closed : Bool} {metadata : Metadata}
  {value : Value}

/-- From an object the record is read whose fields are set by the trees under their keys. -/
theorem ofTree_object_eq_ok_iff : ofTree (.object members closed) = .ok metadata ↔
    closed = true ∧ none ∉ members.map Prod.fst ∧
      ∃ source, source.join = metadata.adaptedFrom ∧
        Draft.Takes {} ⟨some metadata.author, some metadata.contributors, source⟩
          fun field => treesUnder field members := by
  rw [ofTree]
  simp only [bind_eq_ok, pure_eq_ok, require_eq_ok, Draft.readsOn.foldMembers_eq_ok]
  constructor
  · rintro ⟨⟨_, _, source⟩, ⟨hclosed, hkeys, htakes⟩, author, rfl, contributors, rfl, rfl⟩
    exact ⟨hclosed, hkeys, source, rfl, htakes⟩
  · rintro ⟨hclosed, hkeys, source, hsource, htakes⟩
    refine ⟨_, ⟨hclosed, hkeys, htakes⟩, _, rfl, _, rfl, ?_⟩
    rw [hsource]

/-- A source that is null counts as absent, as it does in frontmatter. -/
lemma setsField_adaptedFrom_iff {found : Option Tree} {field : Option Value}
    (h : Option.Rel Tree.StandsFor found field) (source : Option String) :
    (∃ after : Option (Option String), after.join = source ∧
        SetsField (Tree.asOption Tree.asString) none after found.toList) ↔
      (∀ text, source = some text → field = some (.string text)) ∧
        (source = none → field = none ∨ field = some .null) := by
  cases h with
  | none => cases source <;> simp [SetsField]
  | some hvalue =>
    simp only [Option.toList_some, SetsField, asOption_eq_ok hvalue, reads_asString _ _ _ hvalue]
    cases source <;> simp +contextual

/-- From an object in which no key is given twice, the record is read that says what the object
says. -/
theorem ofTree_object_eq_ok (hnodup : (members.map Prod.fst).Nodup)
    (h : (Tree.object members closed).StandsFor value) :
    ofTree (.object members closed) = .ok metadata ↔ metadata.IsIn value := by
  obtain ⟨hclosed, hkeys⟩ := closed_and_keys h
  have hfield := rel_field? h hnodup
  have hauthor := setsField_none_iff Address.reads_ofTree (hfield "author") (a := metadata.author)
  have hcontributors := setsField_none_iff (reads_asList Address.reads_ofTree)
    (hfield "contributors") (a := metadata.contributors)
  have hadapted := setsField_adaptedFrom_iff (hfield "adapted_from") metadata.adaptedFrom
  simp only [ofTree_object_eq_ok_iff, treesUnder_of_nodup hnodup]
  constructor
  · rintro ⟨-, -, source, hjoin, htakes⟩
    obtain ⟨htext, hnull⟩ := hadapted.mp ⟨source, hjoin, htakes.adaptedFrom⟩
    exact ⟨hauthor.mp htakes.author, hcontributors.mp htakes.contributors, htext, hnull⟩
  · intro hin
    obtain ⟨source, hjoin, hsource⟩ := hadapted.mpr ⟨hin.adaptedFrom, hin.unadapted⟩
    exact ⟨hclosed, hkeys, source, hjoin,
      ⟨hauthor.mpr hin.author, hcontributors.mpr hin.contributors, hsource⟩⟩

/-- What is built from frontmatter is what is read from its text, as long as the author is among
the contributors. -/
theorem ofFrontmatter_eq_ok_iff_ofJson (text : String) (value : Value)
    (h : IsObjectText text value) (metadata : Metadata) :
    ofFrontmatter value = .ok metadata ↔
      ofJson text = .ok metadata ∧ metadata.includesAuthor = true := by
  obtain ⟨members, closed, htext, hnodup, hvalue⟩ := h
  rw [ofFrontmatter_eq_ok, ← ofTree_object_eq_ok hnodup hvalue, ofJson, decode_eq_ok, htext]
  simp

/-- A record without contributors can be read, but it cannot be built. -/
example :
    let fields : List (String × Value) :=
      [("author", .string firstAddress), ("contributors", .array [])]
    (ofTree (Value.object fields).tree).isOk = true ∧
      (ofFrontmatter (.object fields)).isOk = false := by
  decide

/-- A record with a source that is null and with a field of another kind. -/
def notedFields : List (String × Value) :=
  [("adapted_from", .null), ("author", .string secondAddress),
    ("contributors", .array [.string firstAddress, .string secondAddress]),
    ("notes", .array [.bool true])]

def notedMetadata : Metadata where
  author := ⟨secondAddress, by decide⟩
  contributors := [⟨firstAddress, by decide⟩, ⟨secondAddress, by decide⟩]
  adaptedFrom := none

theorem ofFrontmatter_eq_ok_iff_ofJson_noted :
    ofJson (Value.object notedFields).text = .ok notedMetadata ∧
      notedMetadata.includesAuthor = true := by
  have htext : IsObjectText (Value.object notedFields).text (.object notedFields) :=
    isObjectText_text rfl
      ⟨by decide, by simp [notedFields, OrderedFields, OrderedItems, Value.Ordered]⟩
  have hin : notedMetadata.IsIn (.object notedFields) :=
    ⟨rfl, rfl, (fun _ hsource => nomatch hsource), fun _ => .inr rfl⟩
  rw [← ofFrontmatter_eq_ok_iff_ofJson _ _ htext, ofFrontmatter_eq_ok]
  exact ⟨hin, by decide⟩

end Metadata

end PuzzleGate
