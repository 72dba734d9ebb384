import Mathlib.Data.List.Basic
import PuzzleGate.Proofs.Text.Lines
import PuzzleGate.Proofs.Text.Utf8

/-!
# Bytes shown as text

Bytes that are the UTF-8 form of a text are shown as that text. No other byte than that of a slash
is shown as one, and what stands before a slash has no influence on how the rest is shown, so bytes
that are split at slashes are shown piece by piece.
-/

namespace PuzzleGate.Text.Utf8

lemma width_eq_one {b : UInt8} : width b = 1 ↔ b.toNat < 128 := by
  simp only [width, UInt8.lt_iff_toNat_lt, UInt8.le_iff_toNat_le, UInt8.reduceToNat,
    Bool.and_eq_true, decide_eq_true_eq]
  grind

lemma width_eq_two {b : UInt8} : width b = 2 ↔ 194 ≤ b.toNat ∧ b.toNat ≤ 223 := by
  simp only [width, UInt8.lt_iff_toNat_lt, UInt8.le_iff_toNat_le, UInt8.reduceToNat,
    Bool.and_eq_true, decide_eq_true_eq]
  grind

lemma width_eq_three {b : UInt8} : width b = 3 ↔ 224 ≤ b.toNat ∧ b.toNat ≤ 239 := by
  simp only [width, UInt8.lt_iff_toNat_lt, UInt8.le_iff_toNat_le, UInt8.reduceToNat,
    Bool.and_eq_true, decide_eq_true_eq]
  grind

lemma width_eq_four {b : UInt8} : width b = 4 ↔ 240 ≤ b.toNat ∧ b.toNat ≤ 244 := by
  simp only [width, UInt8.lt_iff_toNat_lt, UInt8.le_iff_toNat_le, UInt8.reduceToNat,
    Bool.and_eq_true, decide_eq_true_eq]
  grind

lemma isContinuation_iff {b : UInt8} :
    isContinuation b = true ↔ 128 ≤ b.toNat ∧ b.toNat ≤ 191 := by
  simp [isContinuation, UInt8.le_iff_toNat_le]

lemma isSecond_iff {a b : UInt8} : isSecond a b = true ↔
    128 ≤ b.toNat ∧ b.toNat ≤ 191 ∧ (a.toNat = 224 → 160 ≤ b.toNat) ∧
      (a.toNat = 237 → b.toNat ≤ 159) ∧ (a.toNat = 240 → 144 ≤ b.toNat) ∧
      (a.toNat = 244 → b.toNat ≤ 143) := by
  simp only [isSecond, ← UInt8.toNat_inj, UInt8.reduceToNat]
  split_ifs
  all_goals
    simp only [isContinuation_iff, Bool.and_eq_true, decide_eq_true_eq, UInt8.le_iff_toNat_le,
      UInt8.reduceToNat]
    omega

lemma lossyFrom_encodeChar (c : Char) (rest : List UInt8) :
    lossyFrom 0 (String.utf8EncodeChar c ++ rest) = c :: lossyFrom 0 rest := by
  have hvalid : c.toNat < 0xd800 ∨ 0xdfff < c.toNat ∧ c.toNat < 0x110000 := c.valid
  have hchar {n : Nat} (h : n = c.toNat) : Char.ofNat n = c := by rw [h, Char.ofNat_toNat]
  have hbyte {n : Nat} (h : n < 256) : (UInt8.ofNat n).toNat = n := UInt8.toNat_ofNat_of_lt' h
  have hval : c.val.toNat = c.toNat := rfl
  unfold String.utf8EncodeChar
  dsimp only
  rw [hval]
  split_ifs with hone htwo hthree
  · have hfirst := hbyte (n := c.toNat) (by omega)
    have hwidth := (width_eq_one (b := .ofNat c.toNat)).mpr (by omega)
    simp [lossyFrom, front, hwidth, hfirst]
  · have hfirst := hbyte (n := c.toNat / 64 % 32 + 192) (by omega)
    have hsecond := hbyte (n := c.toNat % 64 + 128) (by omega)
    have hwidth := (width_eq_two (b := .ofNat (c.toNat / 64 % 32 + 192))).mpr (by omega)
    have hcontinuation := (isContinuation_iff (b := .ofNat (c.toNat % 64 + 128))).mpr
      ⟨by omega, by omega⟩
    simp only [List.cons_append, List.nil_append, lossyFrom, front, hwidth, hcontinuation,
      low, hfirst, hsecond, if_true]
    rw [hchar (by omega)]
  · have hfirst := hbyte (n := c.toNat / 4096 % 16 + 224) (by omega)
    have hsecond := hbyte (n := c.toNat / 64 % 64 + 128) (by omega)
    have hthird := hbyte (n := c.toNat % 64 + 128) (by omega)
    have hwidth := (width_eq_three (b := .ofNat (c.toNat / 4096 % 16 + 224))).mpr (by omega)
    have hnext := (isSecond_iff (a := .ofNat (c.toNat / 4096 % 16 + 224))
      (b := .ofNat (c.toNat / 64 % 64 + 128))).mpr (by omega)
    have hcontinuation := (isContinuation_iff (b := .ofNat (c.toNat % 64 + 128))).mpr
      ⟨by omega, by omega⟩
    simp only [List.cons_append, List.nil_append, lossyFrom, front, hwidth, hnext, hcontinuation,
      low, hfirst, hsecond, hthird, Bool.not_true, Bool.false_eq_true, if_false]
    rw [hchar (by omega)]
  · have hfirst := hbyte (n := c.toNat / 262144 % 8 + 240) (by omega)
    have hsecond := hbyte (n := c.toNat / 4096 % 64 + 128) (by omega)
    have hthird := hbyte (n := c.toNat / 64 % 64 + 128) (by omega)
    have hfourth := hbyte (n := c.toNat % 64 + 128) (by omega)
    have hwidth := (width_eq_four (b := .ofNat (c.toNat / 262144 % 8 + 240))).mpr (by omega)
    have hnext := (isSecond_iff (a := .ofNat (c.toNat / 262144 % 8 + 240))
      (b := .ofNat (c.toNat / 4096 % 64 + 128))).mpr (by omega)
    have hcontinuation := (isContinuation_iff (b := .ofNat (c.toNat / 64 % 64 + 128))).mpr
      ⟨by omega, by omega⟩
    have hlast := (isContinuation_iff (b := .ofNat (c.toNat % 64 + 128))).mpr
      ⟨by omega, by omega⟩
    simp only [List.cons_append, List.nil_append, lossyFrom, front, hwidth, hnext, hcontinuation,
      hlast, low, hfirst, hsecond, hthird, hfourth, Bool.not_true, Bool.false_eq_true, if_false]
    rw [hchar (by omega)]

theorem lossy_bytes (text : String) : lossy (bytes text) = text := by
  have hchars (s : List Char) : lossyFrom 0 (s.flatMap String.utf8EncodeChar) = s := by
    induction s with
    | nil => rfl
    | cons c s ih => rw [List.flatMap_cons, lossyFrom_encodeChar, ih]
  rw [lossy, bytes, hchars, String.ofList_toList]

lemma front_size (first : UInt8) (rest : List UInt8) : match front first rest with
    | .char _ size | .invalid size => size - 1 ≤ rest.length
    | .incomplete => True := by
  fun_cases front first rest
  all_goals simp

/-- A slash behind what stands at the front makes no difference to it, but for a character that was
not finished: its bytes begin none then. -/
lemma front_append_slash (first : UInt8) (rest behind : List UInt8) :
    front first (rest ++ 0x2f :: behind) = match front first rest with
      | .incomplete => .invalid (rest.length + 1)
      | found => found := by
  have hsecond : isSecond first 0x2f = false := by
    simp [← Bool.not_eq_true, isSecond_iff]
  have hcontinuation : isContinuation 0x2f = false := by decide
  unfold front
  generalize width first = w
  rcases rest with _ | ⟨b, _ | ⟨c, _ | ⟨d, rest⟩⟩⟩
  all_goals
    rcases w with _ | _ | _ | _ | _ | w
    all_goals simp only [List.nil_append, List.cons_append, hsecond, hcontinuation]
  all_goals split_ifs
  all_goals first | rfl | simp_all

lemma eq_of_ofNat {n size size' : Nat} (h : Front.char (.ofNat n) size' = .char '/' size) :
    n = 0x2f := by
  have hnat : (Char.ofNat n).toNat = 0x2f := congrArg Char.toNat (Front.char.inj h).1
  by_cases hvalid : n.isValidChar
  · rwa [Char.ofNat, dif_pos hvalid] at hnat
  · rw [Char.ofNat, dif_neg hvalid] at hnat
    cases hnat

lemma eq_of_front_slash {first : UInt8} {rest : List UInt8} {size : Nat}
    (h : front first rest = .char '/' size) : first = 0x2f := by
  suffices hnat : first.toNat = 0x2f from UInt8.toNat_inj.mp hnat
  revert h
  fun_cases front first rest
  case case1 => exact eq_of_ofNat
  case case3 b rest hwidth hb =>
    intro h
    have hfirst := width_eq_two.mp hwidth
    have hcode := eq_of_ofNat h
    omega
  case case9 b hwidth hb c rest hc =>
    intro h
    have hfirst := width_eq_three.mp hwidth
    have hsecond := isSecond_iff.mp (by simpa using hb)
    have hcode := eq_of_ofNat h
    rw [low, low] at hcode
    omega
  case case16 b hwidth hb c hc d rest hd =>
    intro h
    have hfirst := width_eq_four.mp hwidth
    have hsecond := isSecond_iff.mp (by simpa using hb)
    have hcode := eq_of_ofNat h
    rw [low, low, low] at hcode
    omega
  all_goals
    intro h
    cases h

lemma lossyFrom_length (bytes : List UInt8) : lossyFrom bytes.length bytes = [] := by
  induction bytes with
  | nil => rfl
  | cons b bytes ih => exact ih

theorem lossyFrom_append_slash {skip : Nat} {a : List UInt8} (h : skip ≤ a.length)
    (b : List UInt8) :
    lossyFrom skip (a ++ 0x2f :: b) = lossyFrom skip a ++ '/' :: lossyFrom 0 b := by
  induction a generalizing skip with
  | nil =>
    obtain rfl : skip = 0 := Nat.le_zero.mp h
    rfl
  | cons first rest ih =>
    cases skip with
    | succ skip => exact ih (Nat.le_of_succ_le_succ h)
    | zero =>
      have hsize := front_size first rest
      rw [List.cons_append, lossyFrom, lossyFrom, front_append_slash]
      cases hfront : front first rest with
      | char c size =>
        rw [hfront] at hsize
        exact congrArg (c :: ·) (ih hsize)
      | invalid size =>
        rw [hfront] at hsize
        exact congrArg ('\ufffd' :: ·) (ih hsize)
      | incomplete =>
        have hrest := ih (Nat.le_refl rest.length)
        rw [lossyFrom_length] at hrest
        exact congrArg ('\ufffd' :: ·) hrest

lemma slash_not_mem_lossyFrom {bytes : List UInt8} (h : 0x2f ∉ bytes) (skip : Nat) :
    '/' ∉ lossyFrom skip bytes := by
  induction bytes generalizing skip with
  | nil => exact List.not_mem_nil
  | cons first rest ih =>
    have hrest := ih fun hmem => h (List.mem_cons_of_mem first hmem)
    cases skip with
    | succ skip => exact hrest skip
    | zero =>
      rw [lossyFrom]
      cases hfront : front first rest with
      | char c size =>
        have hc : '/' ≠ c := by
          rintro rfl
          exact h (List.mem_cons.mpr (.inl (eq_of_front_slash hfront).symm))
        exact List.not_mem_cons_of_ne_of_not_mem hc (hrest _)
      | invalid size => exact List.not_mem_cons_of_ne_of_not_mem (by decide) (hrest _)
      | incomplete => exact List.not_mem_cons_of_ne_of_not_mem (by decide) List.not_mem_nil

lemma slash_not_mem_lossy {bytes : List UInt8} (h : 0x2f ∉ bytes) : '/' ∉ (lossy bytes).toList := by
  rw [lossy, String.toList_ofList]
  exact slash_not_mem_lossyFrom h 0

theorem lossy_intercalate (pieces : List (List UInt8)) :
    lossy ([0x2f].intercalate pieces) = "/".intercalate (pieces.map lossy) := by
  induction pieces with
  | nil => rfl
  | cons piece pieces ih =>
    by_cases hrest : pieces = []
    · simp [hrest]
    · have hmap : pieces.map lossy ≠ [] := by simpa using hrest
      rw [List.map_cons, String.intercalate_cons_of_ne_nil hmap, ← ih,
        List.intercalate_cons_of_ne_nil hrest, List.append_assoc, List.singleton_append, lossy,
        lossyFrom_append_slash (Nat.zero_le _), ← String.toList_inj]
      simp [lossy]

lemma splitOn_intercalate_lossy {pieces : List (List UInt8)} (hne : pieces ≠ [])
    (h : ∀ piece ∈ pieces, 0x2f ∉ piece) :
    ("/".intercalate (pieces.map lossy)).toList.splitOn '/' =
      (pieces.map lossy).map String.toList := by
  have hslash : "/".toList = ['/'] := rfl
  rw [String.toList_intercalate, hslash, List.map_map]
  refine List.splitOn_intercalate '/' (fun segment hsegment => ?_) (by simpa using hne)
  obtain ⟨piece, hpiece, rfl⟩ := List.mem_map.mp hsegment
  exact slash_not_mem_lossy (h piece hpiece)

lemma lossy_ne_empty {bytes : List UInt8} (h : bytes ≠ []) : lossy bytes ≠ "" := by
  obtain ⟨first, rest, rfl⟩ := List.exists_cons_of_ne_nil h
  rw [lossy, lossyFrom, ← String.toList_inj.ne, String.toList_ofList]
  cases front first rest <;> exact List.cons_ne_nil _ _

end PuzzleGate.Text.Utf8
