/-
  HeatMeter.Proofs.Text.Blank
  ───────────────────────────
  **WORDS BETWEEN BLANKS, UP TO THE CASE OF LETTERS.**

  A keyword is looked for in a text without the blanks at its ends and in small letters.
  Said of the text itself:

      trim_between      a word without blanks is what is left between blanks
      exists_between    what is left of a text stands between blanks in it
      toLower_eq_iff    small letters agree where letters are the same up to case

  Blanks are those of every script and case is that of ASCII letters alone, so folding
  the case makes no blank and removes none.  `lowerAscii_trim_eq_iff` puts the three
  together.
-/
import HeatMeter.Text.Blank
import Mathlib

namespace HeatMeter.Text

/-! ## §1. Blanks at the ends of a text. -/

/-- Nothing but blanks. -/
def AllBlank (s : List Char) : Prop :=
  ∀ c ∈ s, isBlank c = true

/-- Not a single blank. -/
def NoBlank (s : List Char) : Prop :=
  ∀ c ∈ s, isBlank c = false

section

variable {before word after : List Char}

/-- A text that is written out is looked through. -/
theorem noBlank_of_all (h : (word.all fun c => !isBlank c) = true) : NoBlank word := by
  intro c hc
  exact Bool.not_eq_true' _ ▸ List.all_eq_true.1 h c hc

theorem dropBlanks_append (h : AllBlank before) (s : List Char) :
    dropBlanks (before ++ s) = dropBlanks s :=
  List.dropWhile_append_of_pos h

theorem dropBlanks_of_noBlank (h : NoBlank word) (after : List Char) (hne : word ≠ []) :
    dropBlanks (word ++ after) = word ++ after := by
  obtain ⟨c, rest, rfl⟩ := List.exists_cons_of_ne_nil hne
  exact List.dropWhile_cons_of_neg (by rw [h c List.mem_cons_self]; exact Bool.false_ne_true)

/-- Dropping blanks off the end is dropping them off the front of the text backwards. -/
theorem dropTrailingBlanks_eq (s : List Char) :
    dropTrailingBlanks s = s.rdropWhile isBlank := by
  induction s with
  | nil => rfl
  | cons c s ih =>
    rw [dropTrailingBlanks, ih]
    unfold List.rdropWhile
    rw [List.reverse_cons, List.dropWhile_append]
    -- the rest is blank throughout, or it keeps its last character and so does the whole
    cases hrest : s.reverse.dropWhile isBlank with
    | nil =>
      cases hc : isBlank c with
      | true => simp [hc]
      | false => simp [hc]
    | cons d rest =>
      rw [List.isEmpty_cons, if_neg Bool.false_ne_true, List.reverse_append, List.reverse_cons]
      cases rest.reverse <;> rfl

theorem dropTrailingBlanks_append (h : AllBlank after) (s : List Char) :
    dropTrailingBlanks (s ++ after) = dropTrailingBlanks s := by
  rw [dropTrailingBlanks_eq, dropTrailingBlanks_eq, List.rdropWhile, List.rdropWhile,
    List.reverse_append, List.dropWhile_append_of_pos]
  intro c hc
  exact h c (List.mem_reverse.1 hc)

theorem dropTrailingBlanks_of_noBlank (h : NoBlank word) : dropTrailingBlanks word = word := by
  rw [dropTrailingBlanks_eq, List.rdropWhile_eq_self_iff]
  intro hne
  rw [h _ (List.getLast_mem hne)]
  exact Bool.false_ne_true

/-- **A word without blanks is what is left between blanks.** -/
theorem trim_between (hbefore : AllBlank before) (hword : NoBlank word)
    (hafter : AllBlank after) : trim (before ++ (word ++ after)) = word := by
  rw [trim, dropBlanks_append hbefore]
  by_cases hne : word = []
  · have hblank : dropBlanks after = [] := by
      have hall := dropBlanks_append hafter []
      rw [List.append_nil] at hall
      exact hall
    rw [hne, List.nil_append, hblank]
    rfl
  · rw [dropBlanks_of_noBlank hword after hne, dropTrailingBlanks_append hafter,
      dropTrailingBlanks_of_noBlank hword]

end

/-- **What is left of a text stands between blanks in it.** -/
theorem exists_between (s : List Char) :
    ∃ before after, s = before ++ (trim s ++ after) ∧ AllBlank before ∧ AllBlank after := by
  refine ⟨s.takeWhile isBlank, (dropBlanks s).rtakeWhile isBlank, ?_, ?_, ?_⟩
  · have hafter : trim s ++ (dropBlanks s).rtakeWhile isBlank = dropBlanks s := by
      rw [trim, dropTrailingBlanks_eq]
      exact List.rdropWhile_append_rtakeWhile
    rw [hafter]
    exact List.takeWhile_append_dropWhile.symm
  · intro c hc
    exact List.mem_takeWhile_imp hc
  · intro c hc
    exact List.mem_rtakeWhile_imp hc

/-! ## §2. The case of letters. -/

/-- The same character, or the same ASCII letter in the other case. -/
def SameLetter (c d : Char) : Prop :=
  c = d ∨ ∃ n < 26, (c.toNat = 'A'.toNat + n ∧ d.toNat = 'a'.toNat + n)
    ∨ (c.toNat = 'a'.toNat + n ∧ d.toNat = 'A'.toNat + n)

/-- The same word up to the case of ASCII letters. -/
def SameWord : List Char → List Char → Prop :=
  List.Forall₂ SameLetter

theorem isUpper_iff {c : Char} : c.isUpper = true ↔ 65 ≤ c.toNat ∧ c.toNat ≤ 90 := by
  simp [Char.isUpper, UInt32.le_iff_toNat_le]

/-- Folding the case moves the capitals of ASCII and nothing else. -/
theorem toNat_toLower (c : Char) :
    c.toLower.toNat = if 65 ≤ c.toNat ∧ c.toNat ≤ 90 then c.toNat + 32 else c.toNat := by
  by_cases hupper : c.isUpper = true
  · have hrange := isUpper_iff.1 hupper
    have hvalid : (c.toNat + 32).isValidChar := .inl (by omega)
    rw [if_pos hrange, Char.toLower_eq_of_isUpper hupper, Char.toNat_ofNat, if_pos hvalid]
  · rw [if_neg fun hrange => hupper (isUpper_iff.2 hrange), Char.toLower_eq_of_not_isUpper hupper]

/-- **Small letters agree where letters are the same up to case.** -/
theorem toLower_eq_iff (c d : Char) : c.toLower = d.toLower ↔ SameLetter c d := by
  have hA : 'A'.toNat = 65 := rfl
  have ha : 'a'.toNat = 97 := rfl
  unfold SameLetter
  rw [← Char.toNat_inj, ← Char.toNat_inj, toNat_toLower, toNat_toLower, hA, ha]
  constructor
  · intro hfold
    by_cases hsame : c.toNat = d.toNat
    · exact .inl hsame
    · -- one of the two is a capital, and the other one its small letter
      right
      by_cases hcapital : 65 ≤ c.toNat ∧ c.toNat ≤ 90
      · exact ⟨c.toNat - 65, by omega, .inl (by split at hfold <;> split at hfold <;> omega)⟩
      · exact ⟨d.toNat - 65, by split at hfold <;> split at hfold <;> omega,
          .inr (by split at hfold <;> split at hfold <;> omega)⟩
  · rintro (hsame | ⟨n, hn, ⟨hc, hd⟩ | ⟨hc, hd⟩⟩)
    · rw [hsame]
    · rw [if_pos (by omega), if_neg (by omega)]
      omega
    · rw [if_neg (by omega), if_pos (by omega)]
      omega

theorem lowerAscii_eq_iff (s t : List Char) : lowerAscii s = lowerAscii t ↔ SameWord s t := by
  have hletter : (fun c d : Char => c.toLower = d.toLower) = SameLetter := by
    funext c d
    exact propext (toLower_eq_iff c d)
  unfold lowerAscii SameWord
  rw [← List.forall₂_eq_eq_eq, List.forall₂_map_left_iff, List.forall₂_map_right_iff, hletter]

/-- A blank has no case. -/
theorem toLower_of_isBlank {c : Char} (h : isBlank c = true) : c.toLower = c := by
  rw [← Char.toNat_inj, toNat_toLower, if_neg]
  simp only [isBlank, Bool.or_eq_true, Bool.and_eq_true, decide_eq_true_eq, beq_iff_eq] at h
  omega

theorem noBlank_of_sameWord {s t : List Char} (h : SameWord s t) (ht : NoBlank (lowerAscii t)) :
    NoBlank s := by
  rw [← (lowerAscii_eq_iff s t).2 h] at ht
  intro c hc
  cases hblank : isBlank c with
  | false => rfl
  | true =>
    -- a blank of the text would be one of its folded form
    have hfolded := ht c.toLower (List.mem_map_of_mem hc)
    rw [toLower_of_isBlank hblank, hblank] at hfolded
    exact hfolded

/-! ## §3. Keywords. -/

/-- The text is the word, up to the case of ASCII letters, with blanks around it. -/
def Says (s word : List Char) : Prop :=
  ∃ before inner after, s = before ++ (inner ++ after) ∧ AllBlank before ∧ AllBlank after
    ∧ SameWord inner word

/-- **A text trimmed and in small letters is a keyword exactly if it says it.** -/
theorem lowerAscii_trim_eq_iff {word : List Char} (hsmall : lowerAscii word = word)
    (hword : NoBlank word) (s : List Char) : lowerAscii (trim s) = word ↔ Says s word := by
  constructor
  · intro h
    obtain ⟨before, after, hs, hbefore, hafter⟩ := exists_between s
    refine ⟨before, trim s, after, hs, hbefore, hafter, ?_⟩
    rw [← lowerAscii_eq_iff, h, hsmall]
  · rintro ⟨before, inner, after, rfl, hbefore, hafter, hsame⟩
    have hinner : NoBlank inner := noBlank_of_sameWord hsame (by rw [hsmall]; exact hword)
    rw [trim_between hbefore hinner hafter, ← hsmall, lowerAscii_eq_iff]
    exact hsame

/-- Nothing is left of a text exactly if it is blank. -/
theorem lowerAscii_trim_eq_nil_iff (s : List Char) :
    lowerAscii (trim s) = [] ↔ AllBlank s := by
  constructor
  · intro h
    obtain ⟨before, after, hs, hbefore, hafter⟩ := exists_between s
    rw [List.map_eq_nil_iff.1 h, List.nil_append] at hs
    rw [hs]
    intro c hc
    exact (List.mem_append.1 hc).elim (hbefore c) (hafter c)
  · intro h
    have hnothing : trim s = [] := by
      have hbetween := @trim_between s [] [] h nofun nofun
      rw [List.append_nil, List.append_nil] at hbetween
      exact hbetween
    rw [hnothing]
    rfl

end HeatMeter.Text
