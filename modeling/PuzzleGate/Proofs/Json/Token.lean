import Mathlib.Data.List.TakeWhile
import PuzzleGate.Json.Token

/-!
# Written strings and numbers are read back

A string is written with escapes and a whole number in decimal digits. Each is read back as one
token, whatever stands behind it; only a number must not be followed by more of a number.
-/

namespace PuzzleGate.Json

open Decimal

/-- There are three ways to write a character: a backslash with a short name, the number of a
control that has none, and the character itself. -/
lemma escapeChar_cases (c : Char) :
    (∃ name, name ≠ 'u' ∧ escape? name = some c ∧ escapeChar c = ['\\', name]) ∨
    (c.toNat < 0x20 ∧ escapeChar c =
      ['\\', 'u', '0', '0', hexDigit (c.toNat / 16), hexDigit (c.toNat % 16)]) ∨
    (c ≠ '"' ∧ c ≠ '\\' ∧ ¬ c.toNat < 0x20 ∧ escapeChar c = [c]) := by
  by_cases hquote : c = '"'
  · exact .inl ⟨'"', by decide, by rw [hquote]; rfl, by rw [hquote]; rfl⟩
  by_cases hbackslash : c = '\\'
  · exact .inl ⟨'\\', by decide, by rw [hbackslash]; rfl, by rw [hbackslash]; rfl⟩
  by_cases hb : c = '\x08'
  · exact .inl ⟨'b', by decide, by rw [hb]; rfl, by rw [hb]; rfl⟩
  by_cases hf : c = '\x0c'
  · exact .inl ⟨'f', by decide, by rw [hf]; rfl, by rw [hf]; rfl⟩
  by_cases hn : c = '\n'
  · exact .inl ⟨'n', by decide, by rw [hn]; rfl, by rw [hn]; rfl⟩
  by_cases hr : c = '\r'
  · exact .inl ⟨'r', by decide, by rw [hr]; rfl, by rw [hr]; rfl⟩
  by_cases ht : c = '\t'
  · exact .inl ⟨'t', by decide, by rw [ht]; rfl, by rw [ht]; rfl⟩
  have hescape : escapeChar c = if c.toNat < 0x20 then
      ['\\', 'u', '0', '0', hexDigit (c.toNat / 16), hexDigit (c.toNat % 16)] else [c] := by
    rw [escapeChar, if_neg hquote, if_neg hbackslash, if_neg hb, if_neg hf, if_neg hn, if_neg hr,
      if_neg ht]
  by_cases hcontrol : c.toNat < 0x20
  · exact .inr (.inl ⟨hcontrol, by rw [hescape, if_pos hcontrol]⟩)
  · exact .inr (.inr ⟨hquote, hbackslash, hcontrol, by rw [hescape, if_neg hcontrol]⟩)

/-- The piece stands for the character, whatever comes behind it. -/
def Piece.IsChar (piece : Piece) (c : Char) : Prop :=
  ∀ pieces, joinPieces (piece :: pieces) = (joinPieces pieces).map (c :: ·)

lemma isChar_code {n : Nat} (h : n < 0xd800) : (Piece.code n).IsChar (.ofNat n) := by
  have hhigh : isHighSurrogate n = false := by
    simp only [isHighSurrogate, Bool.and_eq_false_iff, decide_eq_false_iff_not]
    omega
  have hlow : isLowSurrogate n = false := by
    simp only [isLowSurrogate, Bool.and_eq_false_iff, decide_eq_false_iff_not]
    omega
  intro pieces
  cases pieces with
  | nil => simp [joinPieces, hhigh, hlow]
  | cons piece pieces => cases piece <;> simp [joinPieces, hhigh, hlow]

lemma hexValue4?_hexDigit {n : Nat} (h : n < 0x20) :
    hexValue4? '0' '0' (hexDigit (n / 16)) (hexDigit (n % 16)) = some n := by
  have hall : ∀ n < 0x20,
      hexValue4? '0' '0' (hexDigit (n / 16)) (hexDigit (n % 16)) = some n := by decide
  exact hall n h

lemma exists_piece (c : Char) : ∃ piece : Piece, piece.IsChar c ∧ ∀ pieces length rest,
    readPieces pieces length (escapeChar c ++ rest) =
      readPieces (piece :: pieces) (length + (escapeChar c).length) rest := by
  rcases escapeChar_cases c with ⟨name, hname, hescape, heq⟩ | ⟨hcontrol, heq⟩ |
    ⟨hquote, hbackslash, hcontrol, heq⟩
  · refine ⟨.char c, fun _ => rfl, fun pieces length rest => ?_⟩
    rw [heq, List.cons_append, List.cons_append, List.nil_append, readPieces, hescape]
    · rfl
    · intro a b c d rest hu
      exact absurd hu hname
  · refine ⟨.code c.toNat, ?_, fun pieces length rest => ?_⟩
    · have hchar := isChar_code (n := c.toNat) (by omega)
      rwa [Char.ofNat_toNat] at hchar
    · simp only [heq, List.cons_append, List.nil_append, readPieces, hexValue4?_hexDigit hcontrol]
      rfl
  · refine ⟨.char c, fun _ => rfl, fun pieces length rest => ?_⟩
    rw [heq, List.singleton_append, readPieces]
    · simp [hbackslash, hcontrol]
    · exact hquote
    · intro a b c d rest hslash
      exact absurd hslash hbackslash
    · intro a rest hslash
      exact absurd hslash hbackslash

lemma exists_pieces (s : List Char) : ∃ written, joinPieces written = some s ∧
    ∀ pieces length rest, readPieces pieces length (s.flatMap escapeChar ++ '"' :: rest) =
      some (pieces.reverse ++ written, length + (s.flatMap escapeChar).length + 1) := by
  induction s with
  | nil => exact ⟨[], rfl, fun pieces length rest => by simp [readPieces]⟩
  | cons c s ih =>
    obtain ⟨piece, hpiece, hread⟩ := exists_piece c
    obtain ⟨written, hjoin, hall⟩ := ih
    refine ⟨piece :: written, by rw [hpiece, hjoin]; rfl, fun pieces length rest => ?_⟩
    rw [List.flatMap_cons, List.append_assoc, hread, hall, List.length_append, Nat.add_assoc length]
    simp

theorem readToken_stringChars (s : String) (rest : List Char) :
    readToken (stringChars s ++ rest) = some (.string (some s), (stringChars s).length) := by
  obtain ⟨written, hjoin, hread⟩ := exists_pieces s.toList
  have htext : stringChars s ++ rest = '"' :: (s.toList.flatMap escapeChar ++ '"' :: rest) := by
    simp [stringChars]
  rw [htext, readToken, hread]
  simp [hjoin, stringChars]

/-! ### Whole numbers -/

/-- What follows is not more of a number. -/
def NumberEnds (rest : List Char) : Prop :=
  ∀ c ∈ rest.head?, isDigit c = false ∧ c ∉ ['.', 'e', 'E']

lemma numberEnds_nil : NumberEnds [] := by simp [NumberEnds]

lemma numberEnds_cons {c : Char} {rest : List Char} (hdigit : isDigit c = false)
    (hmark : c ∉ ['.', 'e', 'E']) : NumberEnds (c :: rest) := by
  simpa [NumberEnds, hdigit] using hmark

/-- The numeral of a whole number. -/
def Numeral.ofNat (negative : Bool) (n : Nat) : Numeral := ⟨negative, natDigits n, [], none⟩

lemma isDigit_of_mem_natDigits {n : Nat} {c : Char} (h : c ∈ natDigits n) : isDigit c = true := by
  have hdigit := Nat.isDigit_of_mem_toDigits (by decide) (by decide) h
  simpa [Char.isDigit, isDigit, Char.le_def, Bool.and_eq_true] using hdigit

lemma eq_zero_of_head?_natDigits {n : Nat} (h : (natDigits n).head? = some '0') : n = 0 := by
  induction n using Nat.strong_induction_on with
  | _ n ih =>
    rw [natDigits, Nat.toDigits_eq_if (by decide)] at h
    split at h
    · exact Nat.digitChar_eq_zero.mp (Option.some.inj h)
    · rename_i hn
      obtain ⟨d, ds, hds⟩ := List.exists_cons_of_ne_nil (@Nat.toDigits_ne_nil (n / 10) 10)
      have hzero : n / 10 = 0 := ih (n / 10) (by omega) (by rw [hds] at h; rwa [natDigits, hds])
      omega

lemma takeWhile_natDigits {n : Nat} {rest : List Char} (h : NumberEnds rest) :
    (natDigits n ++ rest).takeWhile isDigit = natDigits n := by
  rw [List.takeWhile_append_of_pos fun c hc => isDigit_of_mem_natDigits hc]
  cases rest with
  | nil => simp
  | cons c rest => simp [(h c rfl).1]

lemma readFraction_of_numberEnds {rest : List Char} (h : NumberEnds rest) :
    readFraction rest = some ([], 0) := by
  cases rest with
  | nil => rfl
  | cons c rest =>
    rw [readFraction]
    intro s hdot
    have hmark := (h c rfl).2
    simp [(List.cons.inj hdot).1] at hmark

lemma readExponent_of_numberEnds {rest : List Char} (h : NumberEnds rest) :
    readExponent rest = some (none, 0) := by
  cases rest with
  | nil => rfl
  | cons c rest =>
    have hmark := (h c rfl).2
    simp only [List.mem_cons, List.not_mem_nil, or_false, not_or] at hmark
    unfold readExponent
    split <;> simp_all

lemma readUnsigned_natDigits (negative : Bool) (n : Nat) {rest : List Char}
    (h : NumberEnds rest) :
    readUnsigned negative (natDigits n ++ rest) =
      some (.ofNat negative n, (natDigits n).length) := by
  have hnonempty : (natDigits n).isEmpty = false := by
    rw [List.isEmpty_eq_false_iff]
    exact Nat.toDigits_ne_nil
  have hfront : ¬ ((natDigits n).head? = some '0' ∧ 1 < (natDigits n).length) := by
    rintro ⟨hzero, hlong⟩
    obtain rfl := eq_zero_of_head?_natDigits hzero
    exact absurd hlong (by decide)
  unfold readUnsigned
  simp only [takeWhile_natDigits h, List.drop_left]
  rw [hnonempty, if_neg (by simpa using hfront), readFraction_of_numberEnds h]
  simp [readExponent_of_numberEnds h, Numeral.ofNat]

/-- Digits are gathered completely while the number stays in range. -/
lemma gather_eq {n : Nat} {digits : List Char}
    (h : digits.foldl (fun n d => n * 10 + digitValue d) n < 0x10000000000000000) :
    gather n digits = (digits.foldl (fun n d => n * 10 + digitValue d) n, 0) := by
  induction digits generalizing n with
  | nil => rfl
  | cons d digits ih =>
    have hle (m : Nat) : m ≤ digits.foldl (fun n d => n * 10 + digitValue d) m := by
      clear h ih
      induction digits generalizing m with
      | nil => exact Nat.le_refl m
      | cons d digits ih => exact Nat.le_trans (by omega) (ih (m * 10 + digitValue d))
    rw [List.foldl_cons] at h
    rw [gather, if_pos (Nat.lt_of_le_of_lt (hle _) h), ih h, List.foldl_cons]

lemma gather_natDigits {n : Nat} (h : n < 0x10000000000000000) :
    gather 0 (natDigits n) = (n, 0) := by
  have hvalue : (natDigits n).foldl (fun n d => n * 10 + digitValue d) 0 = n := by
    have hfold := Nat.ofDigitChars_ten_toDigits (n := n)
    rw [Nat.ofDigitChars_eq_foldl] at hfold
    simpa [Nat.mul_comm, natDigits, digitValue] using hfold
  rw [gather_eq (by rwa [hvalue]), hvalue]

lemma readToken_eq_readNumeral {c : Char} {s : List Char} (h : isDigit c = true ∨ c = '-') :
    readToken (c :: s) = (readNumeral (c :: s)).map fun (n, length) => (.number n, length) := by
  rw [readToken]
  all_goals
    intro s hs
    obtain rfl := (List.cons.inj hs).1
    revert h
    decide

lemma readToken_natDigits (n : Nat) {rest : List Char} (h : NumberEnds rest) :
    readToken (natDigits n ++ rest) = some (.number (.ofNat false n), (natDigits n).length) := by
  obtain ⟨d, ds, hds⟩ := List.exists_cons_of_ne_nil (@Nat.toDigits_ne_nil n 10)
  have hd : isDigit d = true := isDigit_of_mem_natDigits (n := n) (by simp [natDigits, hds])
  have hnatural : readNumeral (natDigits n ++ rest) = readUnsigned false (natDigits n ++ rest) := by
    rw [readNumeral]
    intro s hs
    rw [natDigits, hds] at hs
    rw [(List.cons.inj hs).1] at hd
    cases hd
  have hread := readToken_eq_readNumeral (s := ds ++ rest) (.inl hd)
  rw [← List.cons_append, ← hds, ← natDigits, hnatural, readUnsigned_natDigits false n h] at hread
  exact hread

lemma readToken_negative (n : Nat) {rest : List Char} (h : NumberEnds rest) :
    readToken ('-' :: natDigits n ++ rest) =
      some (.number (.ofNat true n), (natDigits n).length + 1) := by
  rw [List.cons_append, readToken_eq_readNumeral (.inr rfl), readNumeral,
    readUnsigned_natDigits true n h]
  rfl

lemma number?_ofNat {negative : Bool} {n : Nat} {number : Number}
    (h : n < 0x10000000000000000) (hnumber : wholeNumber? negative n = some number) :
    (Numeral.ofNat negative n).number? = some number := by
  unfold Numeral.number? Numeral.ofNat
  simp [gather_natDigits h, hnumber]

/-! ### Splitting a text into tokens -/

lemma tokensFrom_append (front rest : List Char) :
    tokensFrom front.length (front ++ rest) = tokens rest := by
  induction front with
  | nil => rfl
  | cons c front ih => exact ih

lemma tokens_of_readToken {c : Char} {front rest : List Char} {token : Token}
    (hspace : isSpace c = false)
    (hread : readToken (c :: front ++ rest) = some (token, front.length + 1)) :
    tokens (c :: front ++ rest) = token :: tokens rest := by
  rw [List.cons_append] at hread ⊢
  rw [tokens, tokensFrom, hspace, if_neg (by decide), hread]
  simp only [Nat.add_sub_cancel, tokensFrom_append]

lemma tokens_spaces {spaces : List Char} (h : ∀ c ∈ spaces, isSpace c = true)
    (rest : List Char) : tokens (spaces ++ rest) = tokens rest := by
  induction spaces with
  | nil => rfl
  | cons c spaces ih =>
    rw [List.cons_append, tokens, tokensFrom, if_pos (h c (List.mem_cons_self ..))]
    exact ih fun d hd => h d (List.mem_cons_of_mem c hd)

@[simp] lemma tokens_openArray (rest : List Char) :
    tokens ('[' :: rest) = .openArray :: tokens rest := rfl

@[simp] lemma tokens_openObject (rest : List Char) :
    tokens ('\x7b' :: rest) = .openObject :: tokens rest := rfl

@[simp] lemma tokens_comma (rest : List Char) : tokens (',' :: rest) = .comma :: tokens rest := rfl

@[simp] lemma tokens_colon (rest : List Char) : tokens (':' :: rest) = .colon :: tokens rest := rfl

lemma tokens_stringChars (s : String) (rest : List Char) :
    tokens (stringChars s ++ rest) = .string (some s) :: tokens rest :=
  tokens_of_readToken rfl (readToken_stringChars s rest)

lemma isSpace_of_isDigit {c : Char} (h : isDigit c = true) : isSpace c = false := by
  have hnot (space : Char) (hspace : isDigit space = false) : c ≠ space := by
    rintro rfl
    rw [hspace] at h
    cases h
  simp [isSpace, hnot ' ' rfl, hnot '\t' rfl, hnot '\n' rfl, hnot '\r' rfl]

lemma tokens_natDigits (n : Nat) {rest : List Char} (h : NumberEnds rest) :
    tokens (natDigits n ++ rest) = .number (.ofNat false n) :: tokens rest := by
  obtain ⟨d, ds, hds⟩ := List.exists_cons_of_ne_nil (@Nat.toDigits_ne_nil n 10)
  have hd : isDigit d = true := isDigit_of_mem_natDigits (n := n) (by simp [natDigits, hds])
  have hread := readToken_natDigits n h
  rw [natDigits, hds] at hread ⊢
  exact tokens_of_readToken (isSpace_of_isDigit hd) hread

lemma tokens_negative (n : Nat) {rest : List Char} (h : NumberEnds rest) :
    tokens ('-' :: natDigits n ++ rest) = .number (.ofNat true n) :: tokens rest :=
  tokens_of_readToken rfl (readToken_negative n h)

end PuzzleGate.Json
