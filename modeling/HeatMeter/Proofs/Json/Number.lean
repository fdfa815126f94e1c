/-
  HeatMeter.Proofs.Json.Number
  ────────────────────────────
  **NUMBERS ARE READ PART BY PART.**

  A number is written as a whole part, a fraction if there is one and an exponent if
  there is one.  Each part is a run of digits, and what introduces the next part, or
  stands after the number, is no digit: so the reader finds the parts as they were
  written.

      NumberText          the parts of a number without its sign
      NumberText.read     the document that they are read as
      number_text         the reader on a number before other text
-/
import HeatMeter.Json.Reader
import HeatMeter.Proofs.Text.Digits

namespace HeatMeter.Json

open Text

/-- The parts of a number without its sign. -/
structure NumberText where
  /-- The digits before the point. -/
  whole : List Char
  /-- The digits after the point. -/
  fraction : Option (List Char)
  /-- Whether the exponent is negative, and its digits. -/
  exponent : Option (Bool × List Char)

namespace NumberText

/-- A fraction as it is written. -/
def fractionText : Option (List Char) → List Char
  | none => []
  | some ds => '.' :: ds

/-- An exponent as it is written. -/
def exponentText : Option (Bool × List Char) → List Char
  | none => []
  | some (negative, ds) => 'e' :: (if negative then '-' else '+') :: ds

/-- A number as it is written. -/
def text (t : NumberText) : List Char :=
  t.whole ++ (fractionText t.fraction ++ exponentText t.exponent)

/-- The value of an exponent. -/
def exponentValue : Option (Bool × List Char) → Int
  | none => 0
  | some (negative, ds) => if negative then -(digitsValue ds : Int) else digitsValue ds

/-- The document that a number is read as. -/
def read (negative : Bool) (t : NumberText) : Json :=
  match t.fraction, t.exponent with
  | none, none => wholeNumber negative t.whole
  | fraction, exponent =>
    .real (Decimal.withSign negative
      (Decimal.assemble t.whole (fraction.getD []) (exponentValue exponent)))

/-- The parts are runs of digits, and no zero stands before other digits. -/
structure WellFormed (t : NumberText) : Prop where
  whole_ne : t.whole ≠ []
  whole : AllDigits t.whole
  leading : t.whole.head? = some '0' → t.whole = ['0']
  fraction : ∀ ds ∈ t.fraction, ds ≠ [] ∧ AllDigits ds
  exponent : ∀ e ∈ t.exponent, e.2 ≠ [] ∧ AllDigits e.2

end NumberText

/-- What stands there does not continue a number. -/
def EndsNumber (rest : List Char) : Prop :=
  ∀ c ∈ rest.head?, c.isDigit = false ∧ c ≠ '.' ∧ c ≠ 'e' ∧ c ≠ 'E'

theorem endsNumber_nil : EndsNumber [] := by
  intro c hc
  cases hc

/-! ## §1. The parts. -/

theorem wholePart_append {whole rest : List Char} (hne : whole ≠ []) (hd : AllDigits whole)
    (hleading : whole.head? = some '0' → whole = ['0']) (hrest : EndsDigits rest) :
    wholePart (whole ++ rest) = some (whole, rest) := by
  unfold wholePart
  rw [digitRun_append hd hrest]
  split
  next heq =>
    injection heq with heq
    exact absurd heq hne
  next heq =>
    injection heq with heq
    rw [heq] at hleading
    have := hleading rfl
    simp at this
  next => rfl

theorem fractionPart_append {ds rest : List Char} (hne : ds ≠ []) (hd : AllDigits ds)
    (hrest : EndsDigits rest) : fractionPart ('.' :: (ds ++ rest)) = some (some ds, rest) := by
  rw [fractionPart, digitRun_append hd hrest]
  split
  next heq =>
    injection heq with heq
    exact absurd heq hne
  next heq =>
    injection heq with hds hmore
    rw [hds, hmore]

theorem fractionPart_none {rest : List Char} (h : ∀ c ∈ rest.head?, c ≠ '.') :
    fractionPart rest = some (none, rest) := by
  unfold fractionPart
  split
  next => exact absurd rfl (h _ rfl)
  next => rfl

theorem exponentPart_append (negative : Bool) {ds rest : List Char} (hne : ds ≠ [])
    (hd : AllDigits ds) (hrest : EndsDigits rest) :
    exponentPart ('e' :: (if negative then '-' else '+') :: (ds ++ rest))
      = some (some (NumberText.exponentValue (some (negative, ds))), rest) := by
  have hsign : Decimal.sign ((if negative then '-' else '+') :: (ds ++ rest))
      = (negative, ds ++ rest) := by
    cases negative <;> rfl
  rw [exponentPart, hsign]
  dsimp only
  rw [digitRun_append hd hrest]
  split
  next heq =>
    injection heq with heq
    exact absurd heq hne
  next heq =>
    injection heq with hds hmore
    rw [← hds, ← hmore]
    rfl

theorem exponentPart_none {rest : List Char} (h : ∀ c ∈ rest.head?, c ≠ 'e' ∧ c ≠ 'E') :
    exponentPart rest = some (none, rest) := by
  unfold exponentPart
  split
  next => exact absurd rfl (h _ rfl).1
  next => exact absurd rfl (h _ rfl).2
  next => rfl

/-! ## §2. Numbers. -/

namespace NumberText

variable {t : NumberText} {rest : List Char}

theorem endsDigits_exponentText (e : Option (Bool × List Char)) (hrest : EndsNumber rest) :
    EndsDigits (exponentText e ++ rest) := by
  cases e with
  | none => exact fun c hc => (hrest c hc).1
  | some e => exact endsDigits_cons _ rfl

theorem exponentPart_text (ht : t.WellFormed) (hrest : EndsNumber rest) :
    exponentPart (exponentText t.exponent ++ rest)
      = some (t.exponent.map fun e => exponentValue (some e), rest) := by
  cases he : t.exponent with
  | none => exact exponentPart_none fun c hc => (hrest c hc).2.2
  | some e =>
    obtain ⟨hne, hd⟩ := ht.exponent e he
    exact exponentPart_append e.1 hne hd fun c hc => (hrest c hc).1

theorem fractionPart_text (ht : t.WellFormed) (hrest : EndsNumber rest) :
    fractionPart (fractionText t.fraction ++ (exponentText t.exponent ++ rest))
      = some (t.fraction, exponentText t.exponent ++ rest) := by
  cases hf : t.fraction with
  | none =>
    apply fractionPart_none
    intro c hc
    cases he : t.exponent with
    | none =>
      rw [he] at hc
      exact (hrest c hc).2.1
    | some e =>
      rw [he] at hc
      have hc : some 'e' = some c := hc
      rw [← Option.some.inj hc]
      decide
  | some ds =>
    obtain ⟨hne, hd⟩ := ht.fraction ds hf
    exact fractionPart_append hne hd (endsDigits_exponentText _ hrest)

theorem wholePart_text (ht : t.WellFormed) (hrest : EndsNumber rest) :
    wholePart (t.text ++ rest)
      = some (t.whole, fractionText t.fraction ++ (exponentText t.exponent ++ rest)) := by
  rw [text, List.append_assoc, List.append_assoc]
  apply wholePart_append ht.whole_ne ht.whole ht.leading
  cases t.fraction with
  | none => exact endsDigits_exponentText _ hrest
  | some ds => exact endsDigits_cons _ rfl

theorem unsignedNumber_text (ht : t.WellFormed) (hrest : EndsNumber rest) (negative : Bool) :
    unsignedNumber negative (t.text ++ rest) = some (t.read negative, rest) := by
  unfold unsignedNumber
  simp only [wholePart_text ht hrest, fractionPart_text ht hrest, exponentPart_text ht hrest,
    Option.bind_eq_bind, Option.bind_some]
  rw [read]
  cases t.fraction with
  | none =>
    cases t.exponent with
    | none => rfl
    | some e => rfl
  | some ds =>
    cases t.exponent with
    | none => rfl
    | some e => rfl

end NumberText

/-- **A number is read as it was written.** -/
theorem number_text {t : NumberText} {rest : List Char} (ht : t.WellFormed)
    (hrest : EndsNumber rest) (negative : Bool) :
    number ((if negative then '-' :: t.text else t.text) ++ rest)
      = some (t.read negative, rest) := by
  cases negative with
  | true => exact NumberText.unsignedNumber_text ht hrest true
  | false =>
    obtain ⟨c, more, hc⟩ := List.exists_cons_of_ne_nil ht.whole_ne
    have hdigit : c.isDigit = true := ht.whole c (by rw [hc]; exact List.mem_cons_self)
    have hread := NumberText.unsignedNumber_text ht hrest false
    rw [if_neg (by decide), ← hread]
    rw [NumberText.text, hc]
    unfold number
    split
    next heq =>
      -- a digit is no sign
      injection heq with heq
      rw [heq] at hdigit
      exact absurd hdigit (by decide)
    next => rfl

end HeatMeter.Json
