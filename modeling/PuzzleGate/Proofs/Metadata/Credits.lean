import PuzzleGate.Proofs.Corpus.Summary
import PuzzleGate.Proofs.Metadata.RoundTrip

/-!
# Authors and contributors are addresses

A text becomes an address only when it is one by its characters, and it stays as it is, whether it
is given by itself or in JSON. The author and the contributors of a record are therefore the texts
that were given for them, each of them an address: in a record that is built from frontmatter or
read as such, in the report on a run and in what is printed of it.
-/

namespace PuzzleGate

open Json Reading Cli Corpus Files

/-- The texts that stand for the author and for the contributors of a document. -/
@[ext]
structure Credits where
  author : String
  contributors : List String

namespace Credits

def AreAddresses (credits : Credits) : Prop :=
  ∀ text ∈ credits.author :: credits.contributors, IsAddress text

/-- The value has the texts under the keys of the author and the contributors. -/
structure StandIn (credits : Credits) (value : Value) : Prop where
  author : value.field? "author" = some (.string credits.author)
  contributors : value.field? "contributors" = some (stringArray credits.contributors)

/-- The source of a record may be left out, and it may be null. -/
def MayBeSource (trees : List Tree) : Prop :=
  trees = [] ∨ trees = [.null] ∨ ∃ text, trees = [.string (some text)]

/-- The tree is a record with the texts: an object that has each of them once, beside members of
other keys, or an array that begins with them. -/
inductive AreRecord (credits : Credits) : Tree → Prop
  | object {members : List (Option String × Tree)} (hkeys : none ∉ members.map Prod.fst)
    (hauthor : treesUnder "author" members = [(Value.string credits.author).tree])
    (hcontributors : treesUnder "contributors" members = [(stringArray credits.contributors).tree])
    (hsource : MayBeSource (treesUnder "adapted_from" members)) :
    AreRecord credits (.object members true)
  | array {source : List Tree} (hsource : MayBeSource source) :
    AreRecord credits (.array ((Value.string credits.author).tree ::
      (stringArray credits.contributors).tree :: source) true)

lemma StandIn.unique {credits credits' : Credits} {value : Value} (h : credits.StandIn value)
    (h' : credits'.StandIn value) : credits = credits' := by
  have hauthor := Value.string.inj (Option.some.inj (h.author.symm.trans h'.author))
  have hcontributors :=
    Value.array.inj (Option.some.inj (h.contributors.symm.trans h'.contributors))
  rw [List.map_inj_right fun _ _ => Value.string.inj] at hcontributors
  exact Credits.ext hauthor hcontributors

end Credits

def Metadata.credits (metadata : Metadata) : Credits :=
  ⟨metadata.author.text, metadata.contributors.map Address.text⟩

lemma Address.asList_ofTree_eq_ok {tree : Tree} {addresses : List Address} :
    tree.asList Address.ofTree = .ok addresses ↔
      tree = (stringArray (addresses.map Address.text)).tree := by
  have hitems (items : List Tree) :
      List.Forall₂ (fun item address => Address.ofTree item = .ok address) items addresses ↔
        items = (addresses.map Address.text).map fun text => (Value.string text).tree := by
    rw [← List.forall₂_eq_eq_eq, List.map_map, List.forall₂_map_right_iff]
    simp only [Address.ofTree_eq_ok]
    rfl
  rw [asList_eq_ok, tree_stringArray]
  simp only [hitems]
  constructor
  · rintro ⟨items, rfl, rfl⟩
    rfl
  · rintro rfl
    exact ⟨_, rfl, rfl⟩

namespace Metadata

variable {metadata : Metadata}

lemma setsField_author {author : Address} {trees : List Tree} :
    SetsField Address.ofTree none (some author) trees ↔
      trees = [(Value.string author.text).tree] := by
  simp [setsField_none_some, Address.ofTree_eq_ok, Value.tree]

lemma setsField_contributors {contributors : List Address} {trees : List Tree} :
    SetsField (Tree.asList Address.ofTree) none (some contributors) trees ↔
      trees = [(stringArray (contributors.map Address.text)).tree] := by
  simp [setsField_none_some, Address.asList_ofTree_eq_ok]

lemma exists_setsField_source {trees : List Tree} :
    (∃ source, SetsField (Tree.asOption Tree.asString) none source trees) ↔
      Credits.MayBeSource trees := by
  have hread (tree : Tree) : (∃ source, tree.asOption Tree.asString = .ok source) ↔
      tree = .null ∨ ∃ text, tree = .string (some text) := by
    cases tree with
    | null => simp [Tree.asOption]
    | _ => simp [Tree.asOption, map_eq_ok, asString_eq_ok]
  simp only [exists_setsField_none, hread]
  constructor
  · rintro (rfl | ⟨tree, rfl, rfl | ⟨text, rfl⟩⟩)
    · exact .inl rfl
    · exact .inr (.inl rfl)
    · exact .inr (.inr ⟨text, rfl⟩)
  · rintro (rfl | rfl | ⟨text, rfl⟩)
    · exact .inl rfl
    · exact .inr ⟨.null, rfl, .inl rfl⟩
    · exact .inr ⟨.string (some text), rfl, .inr ⟨text, rfl⟩⟩

/-- From an array the record is read whose fields are its items in their order. -/
theorem ofTree_array_eq_ok_iff {items : List Tree} {closed : Bool} :
    ofTree (.array items closed) = .ok metadata ↔ closed = true ∧
      ∃ rest source, items = (Value.string metadata.author.text).tree ::
          (stringArray (metadata.contributors.map Address.text)).tree :: rest ∧
        source.join = metadata.adaptedFrom ∧
        SetsField (Tree.asOption Tree.asString) none source rest := by
  obtain ⟨author, contributors, adaptedFrom⟩ := metadata
  match items with
  | [] => simp [ofTree, bind_eq_ok]
  | [_] => simp [ofTree, bind_eq_ok]
  | [first, second] =>
    simp only [ofTree, bind_eq_ok, pure_eq_ok, requireClosed_eq_ok, Address.ofTree_eq_ok,
      Address.asList_ofTree_eq_ok]
    constructor
    · rintro ⟨author', rfl, contributors', rfl, -, hclosed, hmetadata⟩
      obtain ⟨rfl, rfl, rfl⟩ := Metadata.mk.inj hmetadata
      exact ⟨hclosed, [], none, rfl, rfl, rfl⟩
    · rintro ⟨hclosed, rest, source, hitems, rfl, hsource⟩
      obtain ⟨rfl, rfl, rfl⟩ : first = _ ∧ second = _ ∧ [] = rest := by simpa using hitems
      obtain rfl : none = source := hsource
      exact ⟨author, rfl, contributors, rfl, (), hclosed, rfl⟩
  | first :: second :: third :: rest =>
    simp only [ofTree, bind_eq_ok, pure_eq_ok, requireClosed_eq_ok, Address.ofTree_eq_ok,
      Address.asList_ofTree_eq_ok, Bool.and_eq_true, List.isEmpty_iff]
    constructor
    · rintro ⟨author', rfl, contributors', rfl, source, hsource, -, ⟨hclosed, rfl⟩, hmetadata⟩
      obtain ⟨rfl, rfl, rfl⟩ := Metadata.mk.inj hmetadata
      exact ⟨hclosed, [third], some source, rfl, rfl, rfl, source, hsource, rfl⟩
    · rintro ⟨hclosed, trees, after, hitems, rfl, hsource⟩
      obtain ⟨rfl, rfl, rfl⟩ : first = _ ∧ second = _ ∧ third :: rest = trees := by
        simpa using hitems
      cases rest with
      | nil =>
        obtain ⟨-, source, hsource, rfl⟩ := hsource
        exact ⟨author, rfl, contributors, rfl, source, hsource, (), ⟨hclosed, rfl⟩, rfl⟩
      | cons next rest => cases hsource

lemma answers_addressOf (text : String) : Address.Answers text (addressOf text).toOption :=
  Address.answers_of_iff fun _ => toOption_eq_some.trans addressOf_eq_ok

lemma areAddresses_credits (metadata : Metadata) : metadata.credits.AreAddresses := by
  refine List.forall_mem_cons.mpr ⟨metadata.author.isAddress_text, fun text htext => ?_⟩
  obtain ⟨address, -, rfl⟩ := List.mem_map.mp htext
  exact address.isAddress_text

lemma exists_of_areAddresses {credits : Credits} (h : credits.AreAddresses) :
    ∃ (author : Address) (contributors : List Address),
      credits = ⟨author.text, contributors.map Address.text⟩ := by
  obtain ⟨hauthor, hcontributors⟩ := List.forall_mem_cons.mp h
  refine ⟨⟨credits.author, isAddress_iff.mpr hauthor⟩,
    credits.contributors.pmap (fun text htext => ⟨text, isAddress_iff.mpr htext⟩) hcontributors,
    Credits.ext rfl ?_⟩
  simp [List.map_pmap]

/-- A record is read from a tree that is one, if the texts in it are addresses. -/
theorem exists_ofTree_iff {tree : Tree} {credits : Credits} :
    (∃ metadata, ofTree tree = .ok metadata ∧ metadata.credits = credits) ↔
      credits.AreRecord tree ∧ credits.AreAddresses := by
  constructor
  · rintro ⟨metadata, hok, rfl⟩
    refine ⟨?_, metadata.areAddresses_credits⟩
    cases tree with
    | object members closed =>
      obtain ⟨rfl, hkeys, source, -, htakes⟩ := ofTree_object_eq_ok_iff.mp hok
      exact .object hkeys (setsField_author.mp htakes.author)
        (setsField_contributors.mp htakes.contributors)
        (exists_setsField_source.mp ⟨source, htakes.adaptedFrom⟩)
    | array items closed =>
      obtain ⟨rfl, rest, source, rfl, -, hsource⟩ := ofTree_array_eq_ok_iff.mp hok
      exact .array (exists_setsField_source.mp ⟨source, hsource⟩)
    | _ => cases hok
  · rintro ⟨hrecord, haddresses⟩
    obtain ⟨author, contributors, rfl⟩ := exists_of_areAddresses haddresses
    cases hrecord with
    | object hkeys hauthor hcontributors hsource =>
      obtain ⟨source, hsource⟩ := exists_setsField_source.mpr hsource
      exact ⟨⟨author, contributors, source.join⟩, ofTree_object_eq_ok_iff.mpr ⟨rfl, hkeys, source,
        rfl, setsField_author.mpr hauthor, setsField_contributors.mpr hcontributors, hsource⟩, rfl⟩
    | array hsource =>
      obtain ⟨source, hsource⟩ := exists_setsField_source.mpr hsource
      exact ⟨⟨author, contributors, source.join⟩,
        ofTree_array_eq_ok_iff.mpr ⟨rfl, _, source, rfl, rfl, hsource⟩, rfl⟩

lemma exists_ofJson_iff {json : String} {credits : Credits} :
    (∃ metadata, ofJson json = .ok metadata ∧ metadata.credits = credits) ↔
      ∃ tree, readTree json = (tree, true) ∧ credits.AreRecord tree ∧ credits.AreAddresses := by
  simp only [← exists_ofTree_iff, ofJson, decode_eq_ok]
  constructor
  · rintro ⟨metadata, ⟨tree, htree, hok⟩, hcredits⟩
    exact ⟨tree, htree, metadata, hok, hcredits⟩
  · rintro ⟨tree, htree, metadata, hok, hcredits⟩
    exact ⟨metadata, ⟨tree, htree, hok⟩, hcredits⟩

lemma IsIn.standIn {value : Value} (h : metadata.IsIn value) : metadata.credits.StandIn value := by
  refine ⟨h.author, ?_⟩
  rw [h.contributors, credits, stringArray, List.map_map]
  rfl

/-- A record is built with the texts that the frontmatter has, if they are addresses and fit
together. -/
theorem exists_ofFrontmatter_iff {value : Value} {credits : Credits} :
    (∃ metadata, ofFrontmatter value = .ok metadata ∧ metadata.credits = credits) ↔
      credits.StandIn value ∧ credits.AreAddresses ∧ credits.author ∈ credits.contributors ∧
        ∀ source, value.field? "adapted_from" = some source →
          source = .null ∨ ∃ text, source = .string text := by
  constructor
  · rintro ⟨metadata, hok, rfl⟩
    obtain ⟨hin, hincludes⟩ := ofFrontmatter_eq_ok.mp hok
    exact ⟨hin.standIn, metadata.areAddresses_credits,
      List.mem_map_of_mem (includesAuthor_iff.mp hincludes), (hin.fitsRecord hincludes).adapted⟩
  · rintro ⟨hstand, haddresses, hmem, hsource⟩
    obtain ⟨hauthor, hcontributors⟩ := List.forall_mem_cons.mp haddresses
    have hfits : FitsRecord value credits.author (credits.contributors.map .string) := by
      refine ⟨hstand.author, hauthor, hstand.contributors, ?_, fun item hitem => ?_,
        List.mem_map_of_mem hmem, hsource⟩
      · exact List.ne_nil_of_mem (List.mem_map_of_mem hmem)
      · obtain ⟨text, htext, rfl⟩ := List.mem_map.mp hitem
        exact ⟨text, rfl, hcontributors text htext⟩
    obtain ⟨metadata, hok⟩ := exists_fitsRecord_iff.mp ⟨_, _, hfits⟩
    exact ⟨metadata, hok, (ofFrontmatter_eq_ok.mp hok).1.standIn.unique hstand⟩

end Metadata

/-! ### Reports -/

/-- The document at the path is read, and is compiled to this frontmatter. -/
def Corpus.Walker.HasFrontmatter (walker : Walker) (disk : Disk) (path : Path)
    (frontmatter : Value) : Prop :=
  ∃ raw compiled, disk.readText path = .ok raw ∧ walker.compiler raw = .ok compiled ∧
    compiled.frontmatter = some frontmatter

/-- The value is the record of a document in a report that was parsed. -/
inductive IsRecordIn (found report : Value) : Prop
  | document {entries : List Value} {entry : Value}
    (hentries : report.field? "documents" = some (.array entries)) (hentry : entry ∈ entries)
    (hfound : entry.field? "metadata" = some found) : IsRecordIn found report

lemma Corpus.Walker.Reports.standIn {walker : Walker} {disk : Disk} {paths : List Path}
    {report : CorpusReport} (h : walker.Reports disk paths report) {entry : DocumentReport}
    (hentry : entry ∈ report.documents) {metadata : Metadata}
    (hmetadata : entry.metadata = some metadata) :
    ∃ path ∈ paths, ∃ frontmatter, walker.HasFrontmatter disk path frontmatter ∧
      metadata.credits.StandIn frontmatter := by
  rw [h.eq_collect] at hentry
  obtain ⟨path, hpath, hvalid⟩ := mem_documents.mp hentry
  obtain ⟨raw, compiled, hread, hcompile, rfl⟩ := validatePath_eq_ok_iff.mp hvalid
  obtain ⟨frontmatter, hfrontmatter, hok⟩ := metadataOf?_eq_some.mp hmetadata
  exact ⟨path, hpath, frontmatter, ⟨raw, compiled, hread, hcompile, hfrontmatter⟩,
    (Metadata.ofFrontmatter_eq_ok.mp hok).1.standIn⟩

lemma isRecordIn_sorted {report : CorpusReport} {entry : DocumentReport} {metadata : Metadata}
    (hentry : entry ∈ report.documents) (hmetadata : entry.metadata = some metadata)
    (time : String) : IsRecordIn metadata.toJson.sorted (report.toJson time).sorted :=
  .document (report.field?_documents time) (List.mem_map_of_mem hentry)
    (DocumentReport.field?_metadata hmetadata)

lemma exists_metadata_of_isRecordIn {report : CorpusReport} {time : String} {value found : Value}
    (h : parse? (reportText .json report time) = some value) (hfound : IsRecordIn found value) :
    ∃ entry ∈ report.documents, ∃ metadata, entry.metadata = some metadata ∧
      metadata.credits.StandIn found := by
  obtain rfl : (report.toJson time).sorted = value := Option.some.inj <|
    (parse?_pretty ((report.fits_toJson time).mono (by decide))).symm.trans h
  obtain ⟨hentries, hentry, hfound⟩ := hfound
  rw [report.field?_documents time] at hentries
  obtain rfl := Value.array.inj (Option.some.inj hentries)
  obtain ⟨entry, hmem, rfl⟩ := List.mem_map.mp hentry
  rw [entry.field?_metadata_eq] at hfound
  obtain ⟨metadata, hmetadata, rfl⟩ := Option.map_eq_some_iff.mp hfound
  exact ⟨entry, hmem, metadata, hmetadata, metadata.isIn_sorted.standIn⟩

/-- The bytes are tested, and the characters are meant. Addresses are made of the texts that pass
and of no other, from the text itself or from its JSON. They keep their text, so that what is
written of an address is read as the same address. A record is built from frontmatter only if the
texts that stand for the author and the contributors are addresses, and it has these texts. So does
a record that is read from JSON, one that a document has in the report on a run, and one in a
report that is printed. -/
theorem every_address_is_checked :
    (∀ text, isAddress text = true ↔ IsAddress text) ∧
    (∀ text, Address.Answers text (Address.ofString? text) ∧
      Address.Answers text (Metadata.addressOf text).toOption ∧
      ∀ json, parse? json = some (.string text) →
        Address.Answers text (decode Address.ofTree json).toOption) ∧
    (∀ json address, decode Address.ofTree json = .ok address →
      parse? json = some (.string address.text)) ∧
    (∀ address : Address, IsAddress address.text ∧
      Address.ofString? address.text = some address ∧
      decode Address.ofTree (Value.string address.text).text = .ok address) ∧
    (∀ (value : Value) (credits : Credits),
      (∃ metadata, Metadata.ofFrontmatter value = .ok metadata ∧ metadata.credits = credits) ↔
        credits.StandIn value ∧ credits.AreAddresses ∧ credits.author ∈ credits.contributors ∧
          ∀ source, value.field? "adapted_from" = some source →
            source = .null ∨ ∃ text, source = .string text) ∧
    (∀ (json : String) (credits : Credits),
      (∃ metadata, Metadata.ofJson json = .ok metadata ∧ metadata.credits = credits) ↔
        ∃ tree, readTree json = (tree, true) ∧ credits.AreRecord tree ∧ credits.AreAddresses) ∧
    (∀ (walker : Walker) (disk : Disk) (paths : List Path) (report : CorpusReport),
      walker.Reports disk paths report → ∀ entry ∈ report.documents, ∀ metadata,
        entry.metadata = some metadata → ∃ path ∈ paths, ∃ frontmatter,
          walker.HasFrontmatter disk path frontmatter ∧
          metadata.credits.StandIn frontmatter ∧ metadata.credits.AreAddresses) ∧
    ∀ (report : CorpusReport) (time : String) (value found : Value),
      parse? (reportText .json report time) = some value → IsRecordIn found value →
        ∃ entry ∈ report.documents, ∃ metadata, entry.metadata = some metadata ∧
          metadata.credits.StandIn found ∧ metadata.credits.AreAddresses := by
  refine ⟨fun _ => isAddress_iff, fun text => ⟨Address.answers_ofString? text,
      Metadata.answers_addressOf text, fun _ => Address.answers_decode⟩,
    fun _ _ => Address.decode_eq_ok_iff.mp,
    fun address => ⟨address.isAddress_text, Address.ofString?_eq_some.mpr rfl,
      address.decode_text⟩,
    fun _ _ => Metadata.exists_ofFrontmatter_iff, fun _ _ => Metadata.exists_ofJson_iff,
    fun walker disk paths report hreport entry hentry metadata hmetadata => ?_,
    fun report time value found hvalue hfound => ?_⟩
  · obtain ⟨path, hpath, frontmatter, hcompiled, hstand⟩ := hreport.standIn hentry hmetadata
    exact ⟨path, hpath, frontmatter, hcompiled, hstand, metadata.areAddresses_credits⟩
  · obtain ⟨entry, hentry, metadata, hmetadata, hstand⟩ :=
      exists_metadata_of_isRecordIn hvalue hfound
    exact ⟨entry, hentry, metadata, hmetadata, hstand, metadata.areAddresses_credits⟩

open Walker Metadata

/-- The text of an address in JSON, with its first character as an escape. -/
def escapedAddress : String := "\"\\u0030x00000000000000000000000000000000000000aB\""

lemma readTree_escapedAddress :
    readTree escapedAddress = (.string (some secondAddress), true) := by
  have htokens : tokens escapedAddress.toList = [.string (some secondAddress)] := by
    decide +kernel
  rw [readTree, htokens]
  rfl

/-- A text of as many bytes as an address, but of fewer characters. -/
def accentedText : String := "0xéééééééééééééééééééé"

/-- A record by position, with a source that is null. -/
def positionalRecord : Value :=
  .array [.string secondAddress, stringArray [firstAddress, secondAddress], .null]

/-- The record of a document whose second contributor is the second address. -/
def sharedMetadata : Metadata where
  author := ⟨"0xaaaaaaaaaaaaaaaaaaaaaaaaaaaaaaaaaaaaaaaa", by decide⟩
  contributors := [⟨"0xaaaaaaaaaaaaaaaaaaaaaaaaaaaaaaaaaaaaaaaa", by decide⟩,
    ⟨secondAddress, Metadata.isAddress_secondAddress⟩]
  adaptedFrom := none

theorem every_address_is_checked_escaped :
    (∃ address, decode Address.ofTree escapedAddress = .ok address ∧
      address.text = secondAddress) ∧
    Address.ofString? accentedText = none ∧
    notedMetadata.credits.StandIn (.object notedFields) ∧
    (∃ tree, readTree positionalRecord.text = (tree, true) ∧
      notedMetadata.credits.AreRecord tree) ∧
    ∃ report, (walkerOf secondAddress).Reports textDisk [.ofText "/a.mdx"] report ∧
      (∃ path frontmatter, (walkerOf secondAddress).HasFrontmatter textDisk path frontmatter ∧
        sharedMetadata.credits.StandIn frontmatter) ∧
      ∃ value found, ∃ metadata : Metadata, parse? (reportText .json report "") = some value ∧
        IsRecordIn found value ∧ metadata.credits.StandIn found ∧
          metadata.credits.AreAddresses := by
  obtain ⟨-, hanswers, -, -, hfrontmatter, hjson, hruns, hprinted⟩ := every_address_is_checked
  have hescaped : parse? escapedAddress = some (.string secondAddress) :=
    parse?_eq_some.mpr ⟨_, readTree_escapedAddress, rfl⟩
  have hsecond : IsAddress secondAddress := isAddress_iff.mp isAddress_secondAddress
  have haccented : ¬ IsAddress accentedText := fun h => absurd (isAddress_iff.mpr h) (by decide)
  have hpositional : ofJson positionalRecord.text = .ok notedMetadata :=
    decode_eq_ok.mpr ⟨_, readTree_text rfl, rfl⟩
  obtain ⟨address, haddress, htext⟩ :=
    ((hanswers secondAddress).2.2 escapedAddress hescaped).kept hsecond
  obtain ⟨tree, htree, hrecord, -⟩ := (hjson _ _).mp ⟨_, hpositional, rfl⟩
  let report := (walkerOf secondAddress).runSingle textDisk (.ofText "/a.mdx")
  have hreport : (walkerOf secondAddress).Reports textDisk [.ofText "/a.mdx"] report := .single _
  have hentry : validate .builtIn ⟨"a.mdx", "text", recordOf secondAddress⟩ ∈ report.documents := by
    rw [show report = _ from runSingle_walkerOf secondAddress]
    exact List.mem_singleton_self _
  have hvalue := parse?_pretty ((report.fits_toJson "").mono (by decide))
  have hfound : IsRecordIn sharedMetadata.toJson.sorted (report.toJson "").sorted :=
    isRecordIn_sorted hentry rfl ""
  obtain ⟨path, -, frontmatter, hcompiled, hshared, -⟩ :=
    hruns _ _ _ _ hreport _ hentry sharedMetadata rfl
  obtain ⟨-, -, metadata, -, hprintedCredits⟩ := hprinted _ _ _ _ hvalue hfound
  exact ⟨⟨address, toOption_eq_some.mp haddress, htext⟩,
    (hanswers accentedText).1.refused haccented,
    ((hfrontmatter _ _).mp ⟨notedMetadata, rfl, rfl⟩).1,
    ⟨tree, htree, hrecord⟩, report, hreport, ⟨path, frontmatter, hcompiled, hshared⟩,
    _, _, metadata, hvalue, hfound, hprintedCredits⟩

end PuzzleGate
