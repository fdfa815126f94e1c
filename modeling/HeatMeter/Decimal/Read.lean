/-
  HeatMeter.Decimal.Read
  ──────────────────────
  **FLOATS FROM DECIMAL TEXT.**

  A decimal `m · 10^e` is read as the float nearest to it, ties to even, and as
  an infinity beyond the range.  For logs and snapshots (`HeatMeter.Json.Reader`)
  that is an ASSUMPTION: a reader made for speed may read a text of many digits as
  a neighbour of the nearest float.

  `float?` reads the free form in which settings are given as text: an optional
  sign, then digits with or without a point on either side, an optional exponent,
  or one of the words `inf`, `infinity` and `nan` in any case.  There are no
  blanks.  `natural?` and `integer?` read whole numbers with an optional sign.
-/
import HeatMeter.Text.Blank
import HeatMeter.Text.Digits

namespace HeatMeter.Decimal

open Text

/-- The float nearest to `m · 10^e`. -/
def toFloat (m : Nat) (e : Int) : Float :=
  if 0 ≤ e then Float.ofScientific m false e.toNat else Float.ofScientific m true (-e).toNat

/-- A float with a sign in front. -/
def withSign (negative : Bool) (x : Float) : Float :=
  if negative then -x else x

/-- A sign at the front of a text, and what follows it. -/
def sign (s : List Char) : Bool × List Char :=
  match s with
  | '-' :: rest => (true, rest)
  | '+' :: rest => (false, rest)
  | rest => (false, rest)

/-- An exponent that is the whole of a text. -/
def exponent? (s : List Char) : Option Int :=
  let (negative, ds) := sign s
  if ds ≠ [] ∧ ds.all Char.isDigit then
    some (if negative then -(digitsValue ds : Int) else digitsValue ds)
  else none

/-- The value of digits before and after a point, with an exponent. -/
def assemble (whole fraction : List Char) (exponent : Int) : Float :=
  toFloat (digitsValue (whole ++ fraction)) (exponent - fraction.length)

/-- The float that an unsigned text in free form names. -/
def unsigned? (s : List Char) : Option Float :=
  let word := lowerAscii s
  if word = "inf".toList ∨ word = "infinity".toList then some (1.0 / 0.0)
  else if word = "nan".toList then some (0.0 / 0.0)
  else
    let (whole, rest) := digitRun s
    let (fraction, rest) := match rest with
      | '.' :: rest => digitRun rest
      | rest => ([], rest)
    if whole = [] ∧ fraction = [] then none
    else
      match rest with
      | [] => some (assemble whole fraction 0)
      | 'e' :: rest | 'E' :: rest => (exponent? rest).map (assemble whole fraction)
      | _ => none

/-- The float that a text in free form names. -/
def float? (s : List Char) : Option Float :=
  let (negative, rest) := sign s
  (unsigned? rest).map (withSign negative)

/-- The natural number that a text names; it may have a plus sign. -/
def natural? (s : List Char) : Option Nat :=
  let ds := match s with
    | '+' :: rest => rest
    | rest => rest
  if ds ≠ [] ∧ ds.all Char.isDigit then some (digitsValue ds) else none

/-- The whole number that a text names; it may have a sign. -/
def integer? (s : List Char) : Option Int :=
  match s with
  | '-' :: ds =>
    if ds ≠ [] ∧ ds.all Char.isDigit then some (-(digitsValue ds : Int)) else none
  | s => (natural? s).map Int.ofNat

end HeatMeter.Decimal
