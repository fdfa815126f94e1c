/-
  HeatMeter.Decimal.Shortest
  ──────────────────────────
  **THE FEWEST DIGITS THAT READ BACK.**

  A positive float is `m · 2^e`.  Every real number of an interval around it
  rounds to it: half a unit up, half a unit down, or a quarter of a unit down
  where `m` is the smallest mantissa of its binade; the ends belong to the
  interval when `m` is even.  For 1, 2, …, 17 significant digits the two
  neighbours of the value on that decimal grid are tested in exact arithmetic;
  the first grid with a hit wins, of two hits the nearer one, and of two equally
  near ones the one that the tie rule names.

  If any point of a grid lies in the interval then one of the value's two
  neighbours on that grid does, so no shorter decimal reads back.
-/
import HeatMeter.Text.Digits

namespace HeatMeter.Decimal

/-- Which of two equally near decimals is written. -/
inductive Tie where
  /-- The larger one. -/
  | up
  /-- The one whose last digit is even. -/
  | even
  deriving DecidableEq, Repr

/-- A decimal `digits · 10^exponent`. -/
structure Digits where
  /-- The digits as a number. -/
  digits : Nat
  /-- The power of ten of the last digit. -/
  exponent : Int
  deriving DecidableEq, Repr

/-- A fraction of natural numbers. -/
structure Frac where
  /-- Numerator. -/
  num : Nat
  /-- Denominator. -/
  den : Nat

/-- `n · 2^e · 10^k` as a fraction. -/
def scaled (n : Nat) (e k : Int) : Frac :=
  ⟨n * Nat.pow 2 e.toNat * Nat.pow 10 k.toNat, Nat.pow 2 (-e).toNat * Nat.pow 10 (-k).toNat⟩

/-- The number of digits before the decimal point of `m · 2^e`; negative or zero
counts the zeros after it. -/
def magnitude (m : Nat) (e : Int) : Int :=
  let f := scaled m e 330
  ((Text.decimal (f.num / f.den)).length : Int) - 330

/-- Whether the decimal `c · 10^g` rounds to the float `m · 2^e`. -/
def readsBack (m : Nat) (e : Int) (c : Nat) (g : Int) : Bool :=
  let down := if m = Nat.pow 2 52 ∧ -1074 < e then 1 else 2
  let low := scaled (4 * m - down) (e - 2) (-g)
  let high := scaled (4 * m + 2) (e - 2) (-g)
  if m % 2 = 0 then low.num ≤ c * low.den && c * high.den ≤ high.num
  else low.num < c * low.den && c * high.den < high.num

/-- The better of the two neighbours of `m · 2^e` on the grid of multiples of
`10^g`, if one reads back. -/
def onGrid (tie : Tie) (m : Nat) (e : Int) (g : Int) : Option Digits :=
  let f := scaled m e (-g)
  let below := f.num / f.den
  let rest := f.num % f.den
  let above := below + 1
  match readsBack m e below g, readsBack m e above g with
  | false, false => none
  | true, false => some ⟨below, g⟩
  | false, true => some ⟨above, g⟩
  | true, true =>
    if 2 * rest < f.den then some ⟨below, g⟩
    else if f.den < 2 * rest then some ⟨above, g⟩
    else
      match tie with
      | .up => some ⟨above, g⟩
      | .even => some ⟨if below % 2 = 0 then below else above, g⟩

/-- A decimal without zeros at its end; `fuel` bounds their number. -/
def Digits.strip : Nat → Digits → Digits
  | 0, d => d
  | fuel + 1, d =>
    if d.digits ≠ 0 ∧ d.digits % 10 = 0 then strip fuel ⟨d.digits / 10, d.exponent + 1⟩ else d

/-- The fewest digits that read back as the float `m · 2^e`. -/
def shortest (tie : Tie) (m : Nat) (e : Int) : Digits :=
  let k := magnitude m e
  let found := (List.range 17).findSome? fun (n : Nat) => onGrid tie m e (k - (n + 1))
  (found.getD ⟨m, e⟩).strip 18

end HeatMeter.Decimal
