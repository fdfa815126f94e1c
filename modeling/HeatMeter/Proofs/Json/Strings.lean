/-
  HeatMeter.Proofs.Json.Strings
  ─────────────────────────────
  **STRINGS ARE READ AS THEY WERE WRITTEN.**

  Each character of a text is written as itself, as an escape by one letter or, where it
  is a control character without a letter, as an escape by its number.  Read, it gives
  one piece, a character or a unit, and both spell the character: a control character is
  no surrogate.

      pieces_escape    one character
      pieces_text      a text up to its closing quote
      spell_pieces     the pieces of a text spell it
-/
import HeatMeter.Json.Reader
import HeatMeter.Json.Printer
import Mathlib

namespace HeatMeter.Json

/-- Whether a character is written as an escape by its number. -/
def isNumbered (c : Char) : Bool :=
  c.toNat < 32 && c ≠ '\n' && c ≠ '\r' && c ≠ '\t' && c.toNat ≠ 8 && c.toNat ≠ 12

/-- The piece that a character is read as. -/
def pieceOf (c : Char) : StringPiece :=
  if isNumbered c then .unit c.toNat else .char c

theorem char_ofNat_of_toNat {c : Char} {n : Nat} (h : c.toNat = n) : Char.ofNat n = c := by
  rw [← h]
  exact Char.ofNat_toNat c

/-- The two last digits of a control character name it. -/
theorem hexUnit?_control {n : Nat} (h : n < 32) :
    hexUnit? '0' '0' (hexDigit (n / 16)) (hexDigit n) = some n := by
  have hall : ∀ i : Fin 32, hexUnit? '0' '0' (hexDigit (i.val / 16)) (hexDigit i.val)
      = some i.val := by
    decide
  exact hall ⟨n, h⟩

/-- The pieces after a first one. -/
def prepend (p : StringPiece) (x : Option (List StringPiece × List Char)) :
    Option (List StringPiece × List Char) :=
  x.map fun (ps, more) => (p :: ps, more)

theorem pieces_letter {e c : Char} (he : unescape? e = some c) (hu : e ≠ 'u')
    (rest : List Char) : pieces ('\\' :: e :: rest) = prepend (.char c) (pieces rest) := by
  rw [pieces.eq_def]
  split
  next heq => cases heq
  next heq =>
    injection heq with heq _
    exact absurd heq (by decide)
  next heq =>
    injection heq with _ heq
    injection heq with heq _
    exact absurd heq hu
  next heq =>
    injection heq with _ heq
    injection heq with he' hrest
    rw [← he', ← hrest, he]
    show (pieces rest).bind _ = _
    cases pieces rest <;> rfl
  next hne heq =>
    injection heq with hc hrest
    exact (hne _ _ hc.symm hrest.symm).elim

theorem pieces_number {n : Nat} (h : n < 32) (rest : List Char) :
    pieces (['\\', 'u', '0', '0', hexDigit (n / 16), hexDigit n] ++ rest)
      = prepend (.unit n) (pieces rest) := by
  show (hexUnit? '0' '0' (hexDigit (n / 16)) (hexDigit n)).bind _ = _
  rw [hexUnit?_control h]
  show (pieces rest).bind _ = _
  cases pieces rest <;> rfl

theorem pieces_plain {c : Char} (hquote : c ≠ '"') (hslash : c ≠ '\\') (h : ¬ c.toNat < 32)
    (rest : List Char) : pieces (c :: rest) = prepend (.char c) (pieces rest) := by
  rw [pieces.eq_def]
  split
  next heq => cases heq
  next heq =>
    injection heq with heq _
    exact absurd heq hquote
  next heq =>
    injection heq with heq _
    exact absurd heq hslash
  next heq =>
    injection heq with heq _
    exact absurd heq hslash
  next heq =>
    injection heq with hc hrest
    rw [← hc, ← hrest, if_neg h]
    show (pieces rest).bind _ = _
    cases pieces rest <;> rfl

/-- **A character is read as its piece.** -/
theorem pieces_escape (c : Char) (rest : List Char) :
    pieces (escape c ++ rest) = prepend (pieceOf c) (pieces rest) := by
  unfold escape
  by_cases hquote : c = '"'
  · rw [if_pos hquote, hquote]
    exact pieces_letter rfl (by decide) rest
  by_cases hslash : c = '\\'
  · rw [if_neg hquote, if_pos hslash, hslash]
    exact pieces_letter rfl (by decide) rest
  by_cases hline : c = '\n'
  · rw [if_neg hquote, if_neg hslash, if_pos hline, hline]
    exact pieces_letter rfl (by decide) rest
  by_cases hreturn : c = '\r'
  · rw [if_neg hquote, if_neg hslash, if_neg hline, if_pos hreturn, hreturn]
    exact pieces_letter rfl (by decide) rest
  by_cases htab : c = '\t'
  · rw [if_neg hquote, if_neg hslash, if_neg hline, if_neg hreturn, if_pos htab, htab]
    exact pieces_letter rfl (by decide) rest
  rw [if_neg hquote, if_neg hslash, if_neg hline, if_neg hreturn, if_neg htab]
  by_cases hback : c.toNat = 8
  · rw [if_pos hback, ← char_ofNat_of_toNat hback]
    exact pieces_letter rfl (by decide) rest
  by_cases hfeed : c.toNat = 12
  · rw [if_neg hback, if_pos hfeed, ← char_ofNat_of_toNat hfeed]
    exact pieces_letter rfl (by decide) rest
  rw [if_neg hback, if_neg hfeed]
  by_cases hcontrol : c.toNat < 32
  · have hnumbered : isNumbered c = true := by
      simp [isNumbered, hcontrol, hline, hreturn, htab, hback, hfeed]
    rw [if_pos hcontrol, pieceOf, if_pos hnumbered]
    exact pieces_number hcontrol rest
  · have hplain : isNumbered c = false := by
      simp [isNumbered, hcontrol]
    rw [if_neg hcontrol, pieceOf, hplain, if_neg (by decide)]
    exact pieces_plain hquote hslash hcontrol rest

/-- **A text is read up to its closing quote.** -/
theorem pieces_text (s rest : List Char) :
    pieces (s.flatMap escape ++ '"' :: rest) = some (s.map pieceOf, rest) := by
  induction s with
  | nil => rfl
  | cons c s ih =>
    rw [List.flatMap_cons, List.append_assoc, pieces_escape, ih]
    rfl

theorem spell_unit {n : Nat} (h : n < 0xD800) (ps : List StringPiece) :
    spell (.unit n :: ps) = (spell ps).map (Char.ofNat n :: ·) := by
  have hhigh : ¬ (0xD800 ≤ n ∧ n ≤ 0xDFFF) := by omega
  rw [spell.eq_def]
  split
  next heq => cases heq
  next heq =>
    injection heq with heq _
    cases heq
  next heq =>
    injection heq with hn hps
    injection hn with hn
    rw [← hn, hps, if_neg (by omega), if_neg hhigh]
  next heq =>
    injection heq with hn hps
    injection hn with hn
    rw [← hn, ← hps, if_neg hhigh]

/-- **The pieces of a text spell it.** -/
theorem spell_pieces (s : List Char) : spell (s.map pieceOf) = some s := by
  induction s with
  | nil => rfl
  | cons c s ih =>
    rw [List.map_cons, pieceOf]
    split
    next hnumbered =>
      have hsmall : c.toNat < 32 := by
        simp only [isNumbered, Bool.and_eq_true, decide_eq_true_eq] at hnumbered
        exact hnumbered.1.1.1.1.1
      rw [spell_unit (by omega), ih, char_ofNat_of_toNat rfl]
      rfl
    next =>
      rw [spell, ih]
      rfl

/-- **A string is read as it was written.** -/
theorem stringBody_text (s : String) (rest : List Char) :
    stringBody (s.toList.flatMap escape ++ '"' :: rest) = some (some s, rest) := by
  unfold stringBody
  rw [pieces_text]
  show some ((spell (s.toList.map pieceOf)).map String.ofList, rest) = _
  rw [spell_pieces, Option.map_some, String.ofList_toList]

end HeatMeter.Json
