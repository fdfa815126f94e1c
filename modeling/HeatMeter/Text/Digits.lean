/-
  HeatMeter.Text.Digits
  ─────────────────────
  **RUNS OF DECIMAL DIGITS.**

  Reading a run of ASCII digits off the front of a text, its value, and writing
  a number with leading zeros.  Every number format of this library is built
  from these.
-/
namespace HeatMeter.Text

/-- The value of a digit character. -/
def digitValue (c : Char) : Nat :=
  c.toNat - '0'.toNat

/-- The value of a run of digits, the first digit counting most. -/
def digitsValue (ds : List Char) : Nat :=
  ds.foldl (fun n c => 10 * n + digitValue c) 0

/-- The digits a text starts with, and what follows them. -/
def digitRun (s : List Char) : List Char × List Char :=
  s.span Char.isDigit

/-- A number of one to `width` digits off the front of a text. -/
def digitsUpTo (width : Nat) (s : List Char) : Option (Nat × List Char) :=
  let ds := (s.take width).takeWhile Char.isDigit
  if ds.isEmpty then none else some (digitsValue ds, s.drop ds.length)

/-- A number of one or more digits off the front of a text. -/
def digitsAny (s : List Char) : Option (Nat × List Char) :=
  digitsUpTo s.length s

/-- The decimal digits of a number. -/
def decimal (n : Nat) : List Char :=
  Nat.toDigits 10 n

/-- A number in at least `width` digits, with zeros in front. -/
def padded (width n : Nat) : List Char :=
  let ds := decimal n
  List.replicate (width - ds.length) '0' ++ ds

/-- The decimal digits of a whole number, with its sign if it is negative. -/
def signedDecimal (n : Int) : List Char :=
  if n < 0 then '-' :: decimal n.natAbs else decimal n.natAbs

end HeatMeter.Text
