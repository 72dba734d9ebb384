import PuzzleGate.Compiler
import PuzzleGate.Proofs.Json.Members
import PuzzleGate.Proofs.Json.Sorted
import PuzzleGate.Proofs.Text.Blank

/-!
# The record of a compiler

A compiler writes a record and the validator reads it back. What is read is what was written, down
to the characters of the source, and frontmatter that is read is an object: a record that gives
anything else for it, by name or by position, is refused.
-/

namespace PuzzleGate.Compiled

open Json Reading

variable {compiled : Compiled} {output : ByteArray}

/-- Frontmatter that can be written and read back: an object with whole numbers and keys in order,
which leaves one level of nesting to the record. -/
structure IsFrontmatter (value : Value) : Prop where
  isObject : ∃ fields, value = .object fields
  isWhole : value.isWhole = true
  ordered : value.Ordered
  depth : value.depth < maxDepth

/-- A tree that is neither null nor an object. -/
structure IsOther (tree : Tree) : Prop where
  notNull : tree ≠ .null
  notObject : ∀ members closed, tree ≠ .object members closed

/-- The record gives frontmatter, under its name or as the first of the fields. -/
inductive Gives (frontmatter : Tree) : Tree → Prop
  | named {members : List (Option String × Tree)} (closed : Bool)
    (h : (some "frontmatter", frontmatter) ∈ members) : Gives frontmatter (.object members closed)
  | first (rest : List Tree) (closed : Bool) :
    Gives frontmatter (.array (frontmatter :: rest) closed)

lemma frontmatterOf_tree {value : Value} (h : IsFrontmatter value) :
    frontmatterOf value.tree = .ok (some value) := by
  have hvalue := value?_tree value (maxDepth - 1) h.isWhole h.ordered
    (Nat.le_sub_one_of_lt h.depth)
  obtain ⟨fields, rfl⟩ := h.isObject
  change some <$> Tree.asValue (maxDepth - 1) (Value.object fields).tree = _
  rw [Tree.asValue, hvalue]
  rfl

lemma exists_of_isOther {tree : Tree} {frontmatter : Option Value} (h : IsOther tree)
    (hok : frontmatterOf tree = .ok frontmatter) :
    ∃ value, frontmatter = some value ∧ ∀ fields, value ≠ .object fields := by
  have hsome : frontmatterOf tree = some <$> Tree.asValue (maxDepth - 1) tree := by
    cases tree with
    | null => exact absurd rfl h.notNull
    | _ => rfl
  rw [hsome, Tree.asValue] at hok
  split at hok
  · rename_i value hvalue
    obtain rfl := Except.ok.inj hok
    refine ⟨value, rfl, ?_⟩
    rintro fields rfl
    cases tree with
    | object members closed => exact h.notObject members closed rfl
    | null => cases hvalue
    | bool b => cases hvalue
    | number n => simp [Tree.value?] at hvalue
    | string s => simp [Tree.value?] at hvalue
    | array items closed => simp [Tree.value?] at hvalue
    | broken => cases hvalue
  · cases hok

/-- A draft before and after reading on, by the trees that are met under each key. -/
@[mk_iff takes_iff]
structure Draft.Takes (before after : Draft) (found : String → List Tree) : Prop where
  frontmatter : SetsField frontmatterOf before.frontmatter after.frontmatter (found "frontmatter")
  source : SetsField Tree.asString before.source after.source (found "compiledSource")

lemma Draft.take_eq_ok {before after : Draft} {key : String} {tree : Tree} :
    before.take key tree = .ok after ↔
      before.Takes after fun field => if field = key then [tree] else [] := by
  obtain ⟨frontmatter, source⟩ := before
  obtain ⟨frontmatter', source'⟩ := after
  rw [Draft.takes_iff, Draft.take]
  iterate 2
    split
    · rename_i hkey
      subst hkey
      simp only [bind_eq_ok, pure_eq_ok, setOnce_eq_ok, Draft.mk.injEq]
      grind [SetsField]
  grind [SetsField]

lemma Draft.readsOn : ReadsOn Draft.take Draft.Takes where
  nothing {before after} := by
    rw [Draft.takes_iff]
    cases before
    cases after
    simp [SetsField]
  parts {before after first second} := by
    simp only [Draft.takes_iff, setsField_append]
    constructor
    · rintro ⟨⟨frontmatter, hfirst, hfirst'⟩, source, hsecond, hsecond'⟩
      exact ⟨⟨frontmatter, source⟩, ⟨hfirst, hsecond⟩, hfirst', hsecond'⟩
    · rintro ⟨between, ⟨hfirst, hsecond⟩, hfirst', hsecond'⟩
      exact ⟨⟨_, hfirst, hfirst'⟩, _, hsecond, hsecond'⟩
  member := Draft.take_eq_ok

theorem frontmatterOf_of_gives {frontmatter record : Tree} (hgives : Gives frontmatter record)
    (h : ofTree record = .ok compiled) :
    frontmatterOf frontmatter = .ok compiled.frontmatter := by
  cases hgives with
  | named closed hmem =>
    obtain ⟨draft, hdraft, h⟩ := bind_eq_ok.mp h
    obtain ⟨source, -, hcompiled⟩ := bind_eq_ok.mp h
    obtain ⟨-, -, htakes⟩ := Draft.readsOn.foldMembers_eq_ok.mp hdraft
    obtain ⟨found, hread, hset⟩ := htakes.frontmatter.exists_of_mem (mem_treesUnder hmem)
    rw [hread, ← pure_eq_ok.mp hcompiled, hset]
    rfl
  | first rest closed =>
    cases rest with
    | nil =>
      obtain ⟨found, -, h⟩ := bind_eq_ok.mp h
      obtain ⟨-, -, h⟩ := bind_eq_ok.mp h
      cases h
    | cons source rest =>
      obtain ⟨found, hread, h⟩ := bind_eq_ok.mp h
      obtain ⟨text, -, h⟩ := bind_eq_ok.mp h
      obtain ⟨-, -, hcompiled⟩ := bind_eq_ok.mp h
      rw [hread, ← pure_eq_ok.mp hcompiled]

theorem ofTree_toJson (h : ∀ value ∈ compiled.frontmatter, IsFrontmatter value) :
    ofTree compiled.toJson.tree = .ok compiled := by
  have hread : frontmatterOf (compiled.frontmatter.getD .null).tree = .ok compiled.frontmatter := by
    cases hfrontmatter : compiled.frontmatter with
    | none => rfl
    | some value => exact frontmatterOf_tree (h value hfrontmatter)
  have htake : Draft.take {} "frontmatter" (compiled.frontmatter.getD .null).tree =
      .ok ⟨some compiled.frontmatter, none⟩ := by
    rw [Draft.take, if_pos rfl, hread]
    rfl
  have hfold : Tree.foldMembers Draft.take {}
      [(some "frontmatter", (compiled.frontmatter.getD .null).tree),
        (some "compiledSource", .string (some compiled.source))] true =
      .ok ⟨some compiled.frontmatter, some compiled.source⟩ := by
    refine foldMembers_cons_eq_ok.mpr ⟨_, _, rfl, htake, ?_⟩
    exact foldMembers_cons_eq_ok.mpr ⟨_, _, rfl, rfl, rfl⟩
  exact bind_eq_ok.mpr ⟨_, hfold, rfl⟩

lemma isTrimmed_text (compiled : Compiled) : Text.IsTrimmed compiled.toJson.text.toList := by
  have hchars : compiled.toJson.text.toList = compiled.toJson.chars := String.toList_ofList
  rw [hchars, toJson, Value.chars]
  constructor
  · intro c hc
    obtain rfl : '\x7b' = c := Option.some.inj hc
    decide
  · intro c hc
    rw [List.getLast?_concat] at hc
    obtain rfl : '\x7d' = c := Option.some.inj hc
    decide

lemma isWhole_toJson (h : ∀ value ∈ compiled.frontmatter, IsFrontmatter value) :
    compiled.toJson.isWhole = true := by
  have hwhole : (compiled.frontmatter.getD .null).isWhole = true := by
    cases hfrontmatter : compiled.frontmatter with
    | none => rfl
    | some value => exact (h value hfrontmatter).isWhole
  rw [toJson, Value.isWhole, areWholeFields, hwhole]
  rfl

lemma checkFrontmatter_eq_ok {checked : Compiled} :
    compiled.checkFrontmatter = .ok checked ↔ compiled = checked ∧
      ∀ value ∈ compiled.frontmatter, ∃ fields, value = .object fields := by
  unfold checkFrontmatter
  split
  · rename_i hnone
    simp [hnone]
  · rename_i fields hobject
    simp [hobject]
  · rename_i other hother hsome
    rw [hsome]
    constructor
    · intro hok
      cases hok
    · rintro ⟨-, hobject⟩
      obtain ⟨fields, hfields⟩ := hobject other rfl
      exact absurd hfields (hother fields)

/-- Output is accepted when it is text, has nothing but a record in it, and the frontmatter of the
record is an object. -/
theorem ofOutput_eq_ok : ofOutput output = .ok compiled ↔
    ∃ text, Text.Utf8.decode output = .ok text ∧ decode ofTree (Text.trim text) = .ok compiled ∧
      ∀ value ∈ compiled.frontmatter, ∃ fields, value = .object fields := by
  unfold ofOutput
  split
  · rename_i fault hfault
    simp [hfault]
  · rename_i text htext
    split
    · rename_i problem hproblem
      simp [htext, hproblem]
    · rename_i found hfound
      simp only [htext, hfound, checkFrontmatter_eq_ok, Except.ok.injEq, exists_eq_left']
      constructor
      · rintro ⟨rfl, hobject⟩
        exact ⟨rfl, hobject⟩
      · rintro ⟨rfl, hobject⟩
        exact ⟨rfl, hobject⟩

lemma ofOutput_of_not_ok (h : ∀ compiled, ofOutput output ≠ .ok compiled) :
    ∃ fault, ofOutput output = .error (.badOutput fault) := by
  revert h
  unfold ofOutput checkFrontmatter
  split
  · exact fun _ => ⟨_, rfl⟩
  · split
    · exact fun _ => ⟨_, rfl⟩
    · split
      · exact fun h => absurd rfl (h _)
      · exact fun h => absurd rfl (h _)
      · exact fun _ => ⟨_, rfl⟩

theorem ofOutput_encode (h : ∀ value ∈ compiled.frontmatter, IsFrontmatter value)
    {before after : String} (hbefore : ∀ c ∈ before.toList, Text.isBlank c = true)
    (hafter : ∀ c ∈ after.toList, Text.isBlank c = true) :
    ofOutput (Text.Utf8.encode (before ++ compiled.toJson.text ++ after)) = .ok compiled := by
  refine ofOutput_eq_ok.mpr ⟨_, Text.Utf8.decode_encode _, ?_, fun value hvalue =>
    (h value hvalue).isObject⟩
  rw [Text.trim_append hbefore hafter (isTrimmed_text compiled)]
  exact decode_eq_ok.mpr ⟨_, readTree_text (isWhole_toJson h), ofTree_toJson h⟩

/-- A record is read back as it was written, whatever blank characters are around it. All output
that is accepted has an object for frontmatter if it has any, and output whose record gives
anything else for it, null apart, is called malformed. -/
theorem output_round_trip :
    (∀ compiled : Compiled, (∀ value ∈ compiled.frontmatter, IsFrontmatter value) →
      ∀ before after : String, (∀ c ∈ before.toList, Text.isBlank c = true) →
        (∀ c ∈ after.toList, Text.isBlank c = true) →
          ofOutput (Text.Utf8.encode (before ++ compiled.toJson.text ++ after)) = .ok compiled) ∧
    (∀ output compiled, ofOutput output = .ok compiled →
      compiled.frontmatter = none ∨ ∃ fields, compiled.frontmatter = some (.object fields)) ∧
    (∀ output text frontmatter, Text.Utf8.decode output = .ok text →
      Gives frontmatter (readTree (Text.trim text)).1 → IsOther frontmatter →
        ∃ fault, ofOutput output = .error (.badOutput fault)) := by
  refine ⟨fun compiled h before after hbefore hafter => ofOutput_encode h hbefore hafter,
    fun output compiled hok => ?_, fun output text frontmatter htext hgives hother => ?_⟩
  · obtain ⟨text, -, -, hobject⟩ := ofOutput_eq_ok.mp hok
    cases hfrontmatter : compiled.frontmatter with
    | none => exact .inl rfl
    | some value =>
      obtain ⟨fields, rfl⟩ := hobject value hfrontmatter
      exact .inr ⟨fields, rfl⟩
  · refine ofOutput_of_not_ok fun compiled hok => ?_
    obtain ⟨text', htext', hdecode, hobject⟩ := ofOutput_eq_ok.mp hok
    obtain rfl := Except.ok.inj (htext.symm.trans htext')
    obtain ⟨tree, htree, hread⟩ := decode_eq_ok.mp hdecode
    rw [htree] at hgives
    obtain ⟨value, hvalue, hnot⟩ := exists_of_isOther hother (frontmatterOf_of_gives hgives hread)
    obtain ⟨fields, hfields⟩ := hobject value hvalue
    exact hnot fields hfields

/-- A record with characters that are written as escapes, inside and outside of frontmatter. -/
def quizRecord : Compiled where
  frontmatter := some (.object [("author", .string "\"é\"\\"),
    ("levels", .array [.number (.negative 2 (by decide)), .null, .object []])])
  source := "_jsx(\"Quiz\")\n\u0001"

theorem output_round_trip_quiz :
    ofOutput (Text.Utf8.encode ("\u0085" ++ quizRecord.toJson.text ++ "\u3000\n")) =
      .ok quizRecord ∧
    (quizRecord.frontmatter = none ∨ ∃ fields, quizRecord.frontmatter = some (.object fields)) ∧
    ∃ fault, ofOutput (Text.Utf8.encode " [[1],\"\"]") = .error (.badOutput fault) := by
  obtain ⟨hread, hobject, hother⟩ := output_round_trip
  have hfrontmatter : ∀ value ∈ quizRecord.frontmatter, IsFrontmatter value := by
    intro value hvalue
    obtain rfl := Option.some.inj hvalue
    have hlevels : OrderedItems [.number (.negative 2 (by decide)), .null, .object []] :=
      ⟨trivial, trivial, ⟨List.Pairwise.nil, trivial⟩, trivial⟩
    have hkeys : ["author", "levels"].Pairwise (· < ·) := List.pairwise_pair.mpr (by decide)
    exact ⟨⟨_, rfl⟩, rfl, ⟨hkeys, trivial, hlevels, trivial⟩, by decide⟩
  have hquiz := hread quizRecord hfrontmatter "\u0085" "\u3000\n" (List.all_eq_true.mp rfl)
    (List.all_eq_true.mp rfl)
  have htree : readTree (Text.trim " [[1],\"\"]") = (.array
      [.array [.number (.ofNat false 1)] true, .string (some "")] true, true) := rfl
  refine ⟨hquiz, hobject _ _ hquiz, hother _ _ (.array [.number (.ofNat false 1)] true)
    (Text.Utf8.decode_encode _) ?_ ⟨nofun, nofun⟩⟩
  rw [htree]
  exact .first _ _

end PuzzleGate.Compiled
