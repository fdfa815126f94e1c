/-
  HeatMeter.Decimal.Layout
  ────────────────────────
  **HOW A FLOAT IS WRITTEN.**

  Two layouts share the fewest digits that read back and differ in the rest:

      plain   for messages: positional always, no trailing `.0`; `inf`, `-inf`
              and `NaN`; of two equally near decimals the larger
      data    for data files: positional with a fraction from 10^-5 to below
              10^16, otherwise one digit before the point and a signed exponent;
              of two equally near decimals the even one

  A data file has no text for infinities and NaN; who writes one says `null`.
-/
import HeatMeter.Decimal.Shortest

namespace HeatMeter.Decimal

open Float.Model (UnpackedFloat)

/-- A sign in front of a text. -/
def signedText (negative : Bool) (text : List Char) : List Char :=
  if negative then '-' :: text else text

/-- A positional text of a decimal; `fraction` stands for a missing fraction. -/
def positional (d : Digits) (fraction : List Char) : List Char :=
  let ds := Text.decimal d.digits
  if 0 ≤ d.exponent then ds ++ List.replicate d.exponent.toNat '0' ++ fraction
  else
    let places := (-d.exponent).toNat
    if places < ds.length then
      ds.take (ds.length - places) ++ '.' :: ds.drop (ds.length - places)
    else '0' :: '.' :: List.replicate (places - ds.length) '0' ++ ds

/-- The power of ten of the first digit. -/
def Digits.leading (d : Digits) : Int :=
  (Text.decimal d.digits).length + d.exponent - 1

/-- A text with one digit before the point and a signed exponent. -/
def scientific (d : Digits) : List Char :=
  let mantissa := match Text.decimal d.digits with
    | first :: second :: rest => first :: '.' :: second :: rest
    | short => short
  let e := d.leading
  mantissa ++ 'e' :: (if e < 0 then '-' else '+') :: Text.decimal e.natAbs

/-- The plain text of a float. -/
def plain (x : Float) : List Char :=
  match x.toModel.unpack with
  | .notANumber => "NaN".toList
  | .infinity s => signedText (s == .negative) "inf".toList
  | .zero s => signedText (s == .negative) ['0']
  | .finite s m e _ => signedText (s == .negative) (positional (shortest .up m e) [])

/-- The data text of a float, none where it is not finite. -/
def data? (x : Float) : Option (List Char) :=
  match x.toModel.unpack with
  | .notANumber | .infinity _ => none
  | .zero s => some (signedText (s == .negative) "0.0".toList)
  | .finite s m e _ =>
    let d := shortest .even m e
    let text :=
      if -5 ≤ d.leading ∧ d.leading < 16 then positional d ".0".toList else scientific d
    some (signedText (s == .negative) text)

end HeatMeter.Decimal
