/-
  HeatMeter.Proofs.Json.Line
  ──────────────────────────
  **A DOCUMENT ON ONE LINE HOLDS NO CONTROL CHARACTER.**

  A document without layout is made of brackets, commas, colons, the three words,
  numbers and strings.  Numbers are digits with a few signs, and a string stands with
  each control character escaped, the ends of lines among them:

      printable_escape      a character of a string
      printable_realText    a real
      printable_compact     every document

  So its text is one line of a file, whatever texts it holds.
-/
import HeatMeter.Proofs.Decimal.DataText
import HeatMeter.Proofs.Json.Strings

namespace HeatMeter.Json

open Text

/-! ## §1. Printable texts. -/

/-- No control character, and so no end of a line. -/
def Printable (s : List Char) : Prop :=
  ∀ c ∈ s, 32 ≤ c.toNat

section

variable {s t : List Char}

/-- A text that is written out is looked through. -/
theorem printable_of_all (h : (s.all fun c => Nat.ble 32 c.toNat) = true) : Printable s := by
  intro c hc
  exact Nat.le_of_ble_eq_true (List.all_eq_true.1 h c hc)

theorem printable_cons {c : Char} (hc : 32 ≤ c.toNat) (hs : Printable s) : Printable (c :: s) :=
  List.forall_mem_cons.2 ⟨hc, hs⟩

theorem Printable.append (hs : Printable s) (ht : Printable t) : Printable (s ++ t) :=
  List.forall_mem_append.2 ⟨hs, ht⟩

theorem printable_of_digits (h : AllDigits s) : Printable s := by
  intro c hc
  have hlow : 48 ≤ c.toNat := (Char.isDigit_iff_toNat.1 (h c hc)).1
  omega

theorem printable_separated {texts : List (List Char)} (h : ∀ text ∈ texts, Printable text) :
    Printable (separated [','] texts) := by
  induction texts with
  | nil => exact nofun
  | cons text texts ih =>
    obtain ⟨hfirst, hrest⟩ := List.forall_mem_cons.1 h
    cases texts with
    | nil => exact hfirst
    | cons text' texts => exact (hfirst.append (printable_of_all rfl)).append (ih hrest)

end

/-! ## §2. Strings. -/

/-- The hexadecimal digits of control characters are printable. -/
theorem printable_numbered {n : Nat} (h : n < 32) :
    Printable ['\\', 'u', '0', '0', hexDigit (n / 16), hexDigit n] := by
  have hall : ∀ i : Fin 32, (['\\', 'u', '0', '0', hexDigit (i.val / 16), hexDigit i.val].all
      fun c => Nat.ble 32 c.toNat) = true := by
    decide
  exact printable_of_all (hall ⟨n, h⟩)

/-- **A control character is escaped.** -/
theorem printable_escape (c : Char) : Printable (escape c) := by
  unfold escape
  split_ifs with _ _ _ _ _ _ _ hcontrol
  -- seven characters have an escape of their own
  iterate 7
    · exact printable_of_all rfl
  · exact printable_numbered hcontrol
  · exact printable_cons (Nat.le_of_not_lt hcontrol) nofun

theorem printable_quoted (s : List Char) : Printable (quoted s) := by
  have hbody : Printable (s.flatMap escape) := by
    intro c hc
    obtain ⟨d, -, hd⟩ := List.mem_flatMap.1 hc
    exact printable_escape d c hd
  exact (printable_cons (by decide) hbody).append (printable_of_all rfl)

theorem printable_stringText (s : Option String) : Printable (stringText s) :=
  printable_quoted _

/-! ## §3. Numbers. -/

theorem NumberText.printable {t : NumberText} (ht : t.WellFormed) : Printable t.text := by
  have hfraction : Printable (fractionText t.fraction) := by
    cases hf : t.fraction with
    | none => exact nofun
    | some ds => exact printable_cons (by decide) (printable_of_digits (ht.fraction ds hf).2)
  have hexponent : Printable (exponentText t.exponent) := by
    cases he : t.exponent with
    | none => exact nofun
    | some e =>
      have hdigits : Printable e.2 := printable_of_digits (ht.exponent e he).2
      exact printable_cons (by decide) (printable_cons (by cases e.1 <;> decide) hdigits)
  exact (printable_of_digits ht.whole).append (hfraction.append hexponent)

theorem printable_signedText (negative : Bool) {s : List Char} (hs : Printable s) :
    Printable (Decimal.signedText negative s) := by
  cases negative with
  | true => exact printable_cons (by decide) hs
  | false => exact hs

theorem printable_signedDecimal (n : Int) : Printable (signedDecimal n) := by
  have hdigits : Printable (decimal n.natAbs) := printable_of_digits (allDigits_decimal _)
  unfold signedDecimal
  split
  · exact printable_cons (by decide) hdigits
  · exact hdigits

theorem printable_realText (x : Float) : Printable (realText x) := by
  unfold realText
  cases h : x.isFinite with
  | true =>
    rw [Decimal.data?_of_isFinite h]
    exact printable_signedText _ (NumberText.printable (Decimal.wellFormed_floatNumber x))
  | false =>
    rw [Decimal.data?_of_not_isFinite h]
    exact printable_of_all rfl

/-! ## §4. Documents. -/

mutual

/-- **A document on one line is printable.** -/
theorem printable_compact : (x : Json) → Printable (compact x)
  | .null => by
    rw [compact]
    exact printable_of_all rfl
  | .bool b => by
    rw [compact]
    cases b <;> exact printable_of_all rfl
  | .integer n => by
    rw [compact]
    exact printable_signedDecimal n
  | .real x => by
    rw [compact]
    exact printable_realText x
  | .string s => by
    rw [compact]
    exact printable_stringText s
  | .array xs => by
    rw [compact]
    exact (printable_cons (by decide) (printable_separated (printable_compactItems xs))).append
      (printable_of_all rfl)
  | .object ms => by
    rw [compact]
    exact (printable_cons (by decide) (printable_separated (printable_compactMembers ms))).append
      (printable_of_all rfl)

theorem printable_compactItems : (xs : List Json) → ∀ text ∈ compactItems xs, Printable text
  | [] => by
    rw [compactItems]
    exact nofun
  | x :: rest => by
    rw [compactItems]
    exact List.forall_mem_cons.2 ⟨printable_compact x, printable_compactItems rest⟩

theorem printable_compactMembers :
    (ms : List (Option String × Json)) → ∀ text ∈ compactMembers ms, Printable text
  | [] => by
    rw [compactMembers]
    exact nofun
  | (k, x) :: rest => by
    rw [compactMembers]
    refine List.forall_mem_cons.2 ⟨?_, printable_compactMembers rest⟩
    exact (printable_stringText k).append (printable_cons (by decide) (printable_compact x))

end

end HeatMeter.Json
