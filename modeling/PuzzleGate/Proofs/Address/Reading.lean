import PuzzleGate.Proofs.Address
import PuzzleGate.Proofs.Json.Reading

/-!
# Reading addresses

An address is made of a text that is one by its characters, and of no other. The text stays as it
is, whether it is given by itself or in JSON, and so an address that is written is read as the same
address.
-/

namespace PuzzleGate

open Json Reading

namespace Address

/-- The answer to a text that is an address is the address with this very text; any other text has
none. -/
structure Answers (text : String) (answer : Option Address) : Prop where
  kept : IsAddress text → ∃ address, answer = some address ∧ address.text = text
  refused : ¬ IsAddress text → answer = none

variable {text json : String} {address : Address} {tree : Tree}

lemma isAddress_text (address : Address) : IsAddress address.text :=
  isAddress_iff.mp address.valid

lemma answers_of_iff {answer : Option Address}
    (h : ∀ address, answer = some address ↔ text = address.text) : Answers text answer := by
  refine ⟨fun htext => ?_, fun htext => ?_⟩
  · exact ⟨⟨text, isAddress_iff.mpr htext⟩, (h _).mpr rfl, rfl⟩
  · refine Option.eq_none_iff_forall_ne_some.mpr fun address hanswer => htext ?_
    rw [(h address).mp hanswer]
    exact address.isAddress_text

lemma answers_ofString? (text : String) : Answers text (ofString? text) :=
  answers_of_iff fun _ => ofString?_eq_some

lemma ofTree_eq_ok : ofTree tree = .ok address ↔ tree = .string (some address.text) := by
  rw [ofTree]
  simp only [bind_eq_ok, asString_eq_ok]
  constructor
  · rintro ⟨text, rfl, hok⟩
    split at hok
    · rename_i found hfound
      obtain rfl := Except.ok.inj hok
      rw [ofString?_eq_some.mp hfound]
    · cases hok
  · rintro rfl
    exact ⟨address.text, rfl, by rw [ofString?_eq_some.mpr rfl]⟩

/-- An address is read from JSON that stands for its text, however it is written there, and from no
other. -/
theorem decode_eq_ok_iff :
    decode ofTree json = .ok address ↔ parse? json = some (.string address.text) := by
  rw [decode_eq_ok, parse?_eq_some]
  simp only [ofTree_eq_ok, value?_eq_string]

lemma answers_decode (h : parse? json = some (.string text)) :
    Answers text (decode ofTree json).toOption := by
  refine answers_of_iff fun address => ?_
  rw [toOption_eq_some, decode_eq_ok_iff, h, Option.some.injEq, Value.string.injEq]

theorem decode_text (address : Address) :
    decode ofTree (Value.string address.text).text = .ok address :=
  decode_eq_ok_iff.mpr (parse?_text (Value.Fits.string address.text))

end Address

end PuzzleGate
