import PuzzleGate.Proofs.AllowList.File
import PuzzleGate.Proofs.Text.Lines

/-!
# The formats of allow-lists agree

Names can be given line by line, in a JSON array, or in such an array under `elements`. The same
names give the same list in each of these formats, however they are laid out, and names of which
nothing is left when they are trimmed give none. For a text with a name a line it can be said of
every text at all which names it gives.
-/

namespace PuzzleGate.AllowList

open Files Json Text

/-- Blank characters that stay on their line. -/
def IsMargin (s : List Char) : Prop := ∀ c ∈ s, isBlank c = true ∧ c ≠ '\n'

/-- Nothing, or a comment up to the end of its line. -/
def IsComment (s : List Char) : Prop := s = [] ∨ ∃ text, s = '#' :: text ∧ '\n' ∉ text

/-- The line gives the name, or none, with blank characters around it and maybe a comment behind. -/
def GivesName (given : Option String) (line : List Char) : Prop :=
  ∃ before after comment, IsMargin before ∧ IsMargin after ∧ IsComment comment ∧
    line = before ++ (given.getD "").toList ++ after ++ comment

/-- The text gives these names, each on a line. Lines without a name may stand between them, and the
last line needs no line end. -/
inductive IsListing : List String → List Char → Prop
  | last {given : Option String} {line : List Char} (h : GivesName given line) :
    IsListing given.toList line
  | line {given : Option String} {line ending rest : List Char} {names : List String}
    (h : GivesName given line) (hending : ending = ['\n'] ∨ ending = ['\r', '\n'])
    (hrest : IsListing names rest) : IsListing (given.toList ++ names) (line ++ ending ++ rest)

/-- The names of which a list is made: trimmed, and no blank ones. -/
def keptNames (names : List String) : List String := (names.map trim).filter (· ≠ "")

lemma keptNames_append (names names' : List String) :
    keptNames (names ++ names') = keptNames names ++ keptNames names' := by
  simp [keptNames]

lemma keptNames_singleton {name name' : String} (h : trim name = trim name') :
    keptNames [name] = keptNames [name'] := by
  simp [keptNames, h]

lemma ofNames_eq_of_keptNames {names names' : List String}
    (h : keptNames names = keptNames names') : ofNames names = ofNames names' := by
  rw [ofNames, ofNames]
  exact congrArg
    (fun kept => AllowList.mk (kept.foldl (fun list name => insertName name list) [])) h

/-- What a line has in front of a comment. -/
def frontOf (line : List Char) : String := .ofList (line.takeWhile (· ≠ '#'))

/-- A carriage return at the end of a line does not matter: it is blank, or in the comment. -/
lemma trim_frontOf_append (line : List Char) :
    trim (frontOf (line ++ ['\r'])) = trim (frontOf line) := by
  rw [← String.toList_inj, toList_trim, toList_trim, frontOf, frontOf, String.toList_ofList,
    String.toList_ofList, List.takeWhile_append]
  split
  · rename_i hall
    have hself : line.takeWhile (· ≠ '#') = line :=
      List.IsPrefix.eq_of_length (List.takeWhile_prefix _) hall
    have hreturn : ∀ c ∈ ['\r'], isBlank c = true := List.forall_mem_singleton.mpr rfl
    rw [hself]
    exact trimChars_append_back hreturn line
  · rfl

lemma trim_frontOf_dropReturn (line : List Char) :
    trim (frontOf (dropReturn line)) = trim (frontOf line) := by
  rw [dropReturn]
  split
  · rename_i hlast
    conv_rhs => rw [← List.dropLast_append_getLast? _ hlast]
    exact (trim_frontOf_append _).symm
  · rfl

lemma keptNames_lines_append {line : List Char} (h : '\n' ∉ line) (rest : List Char) :
    keptNames (namesOfLines (.ofList (line ++ '\n' :: rest))) =
      keptNames [frontOf line] ++ keptNames (namesOfLines (.ofList rest)) := by
  have hnames : namesOfLines (.ofList (line ++ '\n' :: rest)) =
      [frontOf (dropReturn line)] ++ namesOfLines (.ofList rest) := by
    rw [namesOfLines, namesOfLines, String.toList_ofList, String.toList_ofList,
      lines_append_cons h]
    rfl
  rw [hnames, keptNames_append, keptNames_singleton (trim_frontOf_dropReturn line)]

lemma keptNames_lines_of_not_mem {line : List Char} (h : '\n' ∉ line) :
    keptNames (namesOfLines (.ofList line)) = keptNames [frontOf line] := by
  rw [namesOfLines, String.toList_ofList, lines_of_not_mem h]
  split
  · rename_i hnil
    rw [hnil]
    rfl
  · rfl

section Listing

variable {given : Option String} {line : List Char}

lemma GivesName.trim_frontOf (h : GivesName given line)
    (hgiven : ∀ name ∈ given, '#' ∉ name.toList) :
    trim (frontOf line) = trim (given.getD "") := by
  obtain ⟨before, after, comment, hbefore, hafter, hcomment, rfl⟩ := h
  have hmargin {s : List Char} (hs : IsMargin s) : '#' ∉ s := by
    intro hmem
    cases (hs _ hmem).1
  have hname : '#' ∉ (given.getD "").toList := by
    cases given with
    | none => exact List.not_mem_nil
    | some name => exact hgiven name rfl
  have hfront : (before ++ (given.getD "").toList ++ after ++ comment).takeWhile (· ≠ '#') =
      before ++ (given.getD "").toList ++ after := by
    rw [List.takeWhile_append_of_pos]
    · rcases hcomment with rfl | ⟨text, rfl, -⟩
      · exact List.append_nil _
      · exact List.append_nil _
    · intro c hc
      rw [decide_eq_true_eq]
      rintro rfl
      simp only [List.mem_append] at hc
      rcases hc with (hc | hc) | hc
      · exact hmargin hbefore hc
      · exact hname hc
      · exact hmargin hafter hc
  rw [← String.toList_inj, toList_trim, toList_trim, frontOf, String.toList_ofList, hfront,
    trimChars_append_back fun c hc => (hafter c hc).1,
    trimChars_append_front fun c hc => (hbefore c hc).1]

lemma GivesName.not_mem (h : GivesName given line) (hgiven : ∀ name ∈ given, '\n' ∉ name.toList) :
    '\n' ∉ line := by
  obtain ⟨before, after, comment, hbefore, hafter, hcomment, rfl⟩ := h
  have hname : '\n' ∉ (given.getD "").toList := by
    cases given with
    | none => exact List.not_mem_nil
    | some name => exact hgiven name rfl
  have hbehind : '\n' ∉ comment := by
    rcases hcomment with rfl | ⟨text, rfl, htext⟩
    · exact List.not_mem_nil
    · simp [htext]
  simp only [List.mem_append, not_or]
  exact ⟨⟨⟨fun hc => (hbefore _ hc).2 rfl, hname⟩, fun hc => (hafter _ hc).2 rfl⟩, hbehind⟩

lemma GivesName.keptNames_eq (h : GivesName given line)
    (hgiven : ∀ name ∈ given, '#' ∉ name.toList) :
    keptNames [frontOf line] = keptNames given.toList := by
  rw [keptNames_singleton (h.trim_frontOf hgiven)]
  cases given with
  | none => rfl
  | some name => rfl

end Listing

/-- A text with a name a line gives the names, but for blank characters and blank names. -/
theorem IsListing.keptNames_eq {names : List String} {text : List Char} (h : IsListing names text)
    (hnames : ∀ name ∈ names, '#' ∉ name.toList ∧ '\n' ∉ name.toList) :
    keptNames (namesOfLines (.ofList text)) = keptNames names := by
  induction h with
  | last hline =>
    have hgiven := fun name hname => hnames name (Option.mem_toList.mpr hname)
    rw [keptNames_lines_of_not_mem (hline.not_mem fun name hname => (hgiven name hname).2),
      hline.keptNames_eq fun name hname => (hgiven name hname).1]
  | @line given line ending rest names hline hending _ ih =>
    have hgiven := fun name hname =>
      hnames name (List.mem_append_left _ (Option.mem_toList.mpr hname))
    have hfeed := hline.not_mem fun name hname => (hgiven name hname).2
    have hrest := ih fun name hname => hnames name (List.mem_append_right _ hname)
    rw [keptNames_append, ← hline.keptNames_eq fun name hname => (hgiven name hname).1, ← hrest]
    rcases hending with rfl | rfl
    · rw [List.append_assoc, List.singleton_append, keptNames_lines_append hfeed]
    · have hreturn : '\n' ∉ line ++ ['\r'] := by simp [hfeed]
      have htext : line ++ ['\r', '\n'] ++ rest = line ++ ['\r'] ++ '\n' :: rest := by simp
      rw [htext, keptNames_lines_append hreturn, keptNames_singleton (trim_frontOf_append line)]

/-- The extension of the path is that of no other format. -/
def IsLineFile (path : Path) : Prop :=
  ∀ extension ∈ ["json", "yaml", "yml"], path.extension? ≠ some (.ofText extension)

/-- If the text is an object, it gives no key twice. -/
def HasDistinctKeys (text : String) : Prop :=
  ∀ members closed, (Json.readTree text).1 = .object members closed → (members.map Prod.fst).Nodup

/-- A file at this path with this text gives the names, in one of the formats. -/
inductive IsFileOf (names : List String) (path : Path) (text : String) : Prop
  | lines (hpath : IsLineFile path) (h : IsListing names text.toList)
  | array (hpath : path.extension? = some (.ofText "json"))
      (h : parse? text = some (stringArray names))
  | mapping (hpath : path.extension? = some (.ofText "json")) {value : Value}
      (h : parse? text = some value)
    (hkeys : HasDistinctKeys text) (hnames : value.field? "elements" = some (stringArray names))

variable {names : List String} {path : Path} {text : String}

lemma IsFileOf.exists_names (h : IsFileOf names path text)
    (hnames : ∀ name ∈ names, '#' ∉ name.toList ∧ '\n' ∉ name.toList) :
    ∃ found, namesOfText path text = .ok found ∧ keptNames found = keptNames names := by
  cases h with
  | lines hpath hlisting =>
    refine ⟨_, namesOfText_lines hpath text, ?_⟩
    have hkept := hlisting.keptNames_eq hnames
    rwa [String.ofList_toList] at hkept
  | array hpath hparse =>
    obtain ⟨tree, htree, hvalue⟩ := parse?_eq_some.mp hparse
    have hread := readTree_eq_ok hvalue (namesOfTree?_array ⟨_, hvalue⟩)
    exact ⟨names, namesOfText_json hpath (decode_eq_ok.mpr ⟨tree, htree, hread⟩), rfl⟩
  | @mapping hpath value hparse hkeys hfield =>
    obtain ⟨tree, htree, hvalue⟩ := parse?_eq_some.mp hparse
    have hobject : ∃ members closed, tree = .object members closed := by
      have hview := Tree.StandsFor.view ⟨_, hvalue⟩
      cases hview with
      | object hmembers => exact ⟨_, _, rfl⟩
      | _ => cases hfield
    obtain ⟨members, closed, rfl⟩ := hobject
    have hnodup := hkeys members closed (by rw [htree])
    have hread := readTree_eq_ok hvalue (namesOfTree?_object ⟨_, hvalue⟩ hnodup hfield)
    exact ⟨names, namesOfText_json hpath (decode_eq_ok.mpr ⟨_, htree, hread⟩), rfl⟩

lemma names_ofNames_eq_nil_iff : (ofNames names).names = [] ↔
    (names.all fun name => name.toList.all isBlank) = true := by
  simp only [List.all_eq_true, List.eq_nil_iff_forall_not_mem, mem_ofNames, ← trim_eq_empty_iff]
  constructor
  · intro h name hname
    by_contra hne
    exact h _ ⟨hne, name, hname, rfl⟩
  · rintro h _ ⟨hne, name, hname, rfl⟩
    exact hne (h name hname)

lemma isFileOf_arrayText (names : List String) (hpath : path.extension? = some (.ofText "json")) :
    IsFileOf names path (stringArray names).text := by
  refine .array hpath ?_
  rw [parse?_text ((fits_stringArray names).mono (by decide)), sorted_stringArray]

lemma isFileOf_mappingText (names : List String) (hpath : path.extension? = some (.ofText "json")) :
    IsFileOf names path (Value.object [("elements", stringArray names)]).text := by
  have hfits : (Value.object [("elements", stringArray names)]).Fits 2 :=
    Value.Fits.object (List.forall_mem_singleton.mpr (fits_stringArray names))
  refine .mapping hpath (parse?_text (hfits.mono (by decide))) (fun members closed htree => ?_) ?_
  · rw [readTree_text hfits.isWhole] at htree
    obtain ⟨rfl, -⟩ := Tree.object.inj htree
    exact List.nodup_singleton _
  · rw [Value.field?_sorted (by simp), List.lookup_cons_self, Option.map_some,
      sorted_stringArray]

lemma mem_namesOfLines {name text : String} :
    name ∈ namesOfLines text ↔ ∃ line, IsLineOf line text.toList ∧ frontOf line = name := by
  simp only [← mem_lines_iff]
  exact List.mem_map

/-- Names that have neither a comment nor a line feed in them give the same list in every format, or
are refused in every format if all are blank. The JSON texts of such files can be written for any
names. Any text at all that is read line by line gives the trimmed names in front of comments, but
no empty ones, and no file gives a list without names. -/
theorem formats_agree :
    (∀ names : List String, (∀ name ∈ names, '#' ∉ name.toList ∧ '\n' ∉ name.toList) →
      ∀ (disk : Disk) (path : Path) (text : String),
        disk.readBytes path = .ok (Utf8.encode text) → IsFileOf names path text →
          load disk path =
            if names.all fun name => name.toList.all isBlank then .error (.empty path)
            else .ok (ofNames names)) ∧
    (∀ (names : List String) (path : Path), path.extension? = some (.ofText "json") →
      IsFileOf names path (stringArray names).text ∧
        IsFileOf names path (Value.object [("elements", stringArray names)]).text) ∧
    (∀ (disk : Disk) (path : Path) (text : String), IsLineFile path →
      disk.readBytes path = .ok (Utf8.encode text) →
        ∃ allowed : AllowList, allowed.names.Pairwise (· < ·) ∧
          (∀ name, allowed.contains name = true ↔ name ≠ "" ∧
            ∃ line, IsLineOf line text.toList ∧
              trim (.ofList (line.takeWhile (· ≠ '#'))) = name) ∧
          load disk path =
            if allowed.names = [] then .error (.empty path) else .ok allowed) ∧
    ∀ disk path allowed, load disk path = .ok allowed → allowed.isEmpty = false := by
  refine ⟨fun names hnames disk path text hread h => ?_,
    fun names path hpath => ⟨isFileOf_arrayText names hpath, isFileOf_mappingText names hpath⟩,
    fun disk path text hpath hread => ?_, fun disk path allowed hload => ?_⟩
  · obtain ⟨found, hfound, hkept⟩ := h.exists_names hnames
    rw [load_eq_ite hread hfound, ofNames_eq_of_keptNames hkept]
    simp only [names_ofNames_eq_nil_iff]
  · refine ⟨ofNames (namesOfLines text), pairwise_ofNames _, fun name => ?_,
      load_eq_ite hread (namesOfText_lines hpath text)⟩
    rw [contains, List.contains_iff_mem, mem_ofNames]
    simp only [mem_namesOfLines]
    refine and_congr_right fun _ => ⟨?_, ?_⟩
    · rintro ⟨-, ⟨line, hline, rfl⟩, hname⟩
      exact ⟨line, hline, hname⟩
    · rintro ⟨line, hline, hname⟩
      exact ⟨_, ⟨line, hline, rfl⟩, hname⟩
  · obtain ⟨-, -, -, -, -, hne⟩ := load_eq_ok.mp hload
    rw [isEmpty, List.isEmpty_eq_false_iff]
    exact hne

def spacedNames : List String := ["p", " h1\u00a0", "", "p"]

/-- The names line by line, with comments and lines of their own, one of which has no name. -/
def spacedLines : String := "\u3000p# text\r\n # none\n h1\u00a0\u0085\n\np"

def spacedDisk : Disk :=
  ⟨.directory [(.ofText "a.txt", .ofText spacedLines),
    (.ofText "b.json", .ofText (stringArray spacedNames).text),
    (.ofText "c.json", .ofText (Value.object [("elements", stringArray spacedNames)]).text)],
    .ofText "/"⟩

lemma isListing_spacedLines : IsListing spacedNames spacedLines.toList := by
  have hplain (given : Option String) : GivesName given (given.getD "").toList :=
    ⟨[], [], [], nofun, nofun, .inl rfl, by simp⟩
  have hfirst : GivesName (some "p") "\u3000p# text".toList :=
    ⟨['\u3000'], [], "# text".toList, by simp [IsMargin, isBlank], nofun,
      .inr ⟨" text".toList, rfl, by decide⟩, rfl⟩
  have hnone : GivesName none " # none".toList :=
    ⟨[' '], [], "# none".toList, by simp [IsMargin, isBlank], nofun,
      .inr ⟨" none".toList, rfl, by decide⟩, rfl⟩
  have hthird : GivesName (some " h1\u00a0") " h1\u00a0\u0085".toList :=
    ⟨[], ['\u0085'], [], nofun, by simp [IsMargin, isBlank], .inl rfl, rfl⟩
  exact .line hfirst (.inr rfl) (.line hnone (.inl rfl) (.line hthird (.inl rfl)
    (.line (hplain (some "")) (.inl rfl) (.last (hplain (some "p"))))))

theorem formats_agree_spaced :
    load spacedDisk (.ofText "a.txt") = .ok (ofNames spacedNames) ∧
    load spacedDisk (.ofText "b.json") = .ok (ofNames spacedNames) ∧
    load spacedDisk (.ofText "c.json") = .ok (ofNames spacedNames) ∧
    (∃ allowed : AllowList, load spacedDisk (.ofText "a.txt") = .ok allowed ∧
      (allowed.contains "h1" = true ↔ "h1" ≠ "" ∧ ∃ line, IsLineOf line spacedLines.toList ∧
        trim (.ofList (line.takeWhile (· ≠ '#'))) = "h1")) ∧
    (ofNames spacedNames).isEmpty = false := by
  obtain ⟨hsame, hjson, hlines, hne⟩ := formats_agree
  have hnames : ∀ name ∈ spacedNames, '#' ∉ name.toList ∧ '\n' ∉ name.toList := by decide
  have hpath : IsLineFile (.ofText "a.txt") := by
    unfold IsLineFile
    decide
  have htext := hsame spacedNames hnames spacedDisk (.ofText "a.txt") spacedLines rfl
    (.lines hpath isListing_spacedLines)
  have harray := hsame spacedNames hnames spacedDisk (.ofText "b.json") _ rfl
    (hjson spacedNames _ (by decide)).1
  have hmapping := hsame spacedNames hnames spacedDisk (.ofText "c.json") _ rfl
    (hjson spacedNames _ (by decide)).2
  have hshown : ¬ (spacedNames.all fun name => name.toList.all isBlank) = true := by decide
  rw [if_neg hshown] at htext harray hmapping
  obtain ⟨allowed, -, hcontains, hload⟩ := hlines spacedDisk (.ofText "a.txt") spacedLines hpath rfl
  refine ⟨htext, harray, hmapping, ⟨allowed, ?_, hcontains "h1"⟩, hne _ _ _ htext⟩
  rw [htext] at hload ⊢
  split at hload
  · cases hload
  · exact hload

end PuzzleGate.AllowList
