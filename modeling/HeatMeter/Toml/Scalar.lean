/-
  HeatMeter.Toml.Scalar
  ─────────────────────
  **NUMBERS, TRUTH VALUES, DATES AND TIMES OF TOML.**

  A value that is not a string, an array or a table is one WORD.  Underscores may
  stand between the digits of a number.  Whole numbers are decimal, without
  leading zeros, or hexadecimal, octal or binary behind `0x`, `0o` and `0b`, and
  must fit 64 bits with a sign.  A float beyond the range of floats is an error.
  A date may be followed by a time after a single space.
-/
import HeatMeter.Decimal.Read
import HeatMeter.Json.Strings
import HeatMeter.Time.Calendar
import HeatMeter.Toml.Value

namespace HeatMeter.Toml

open Text

/-! ## §1. Numbers. -/

/-- Digits without the underscores between them; none if an underscore is not
between digits, or if there are no digits. -/
def bareDigits (isDigit : Char → Bool) : List Char → Option (List Char)
  | [] => none
  | [d] => if isDigit d then some [d] else none
  | d :: '_' :: rest => if isDigit d then (bareDigits isDigit rest).map (d :: ·) else none
  | d :: rest => if isDigit d then (bareDigits isDigit rest).map (d :: ·) else none

/-- A whole number of 64 bits with a sign. -/
def fitted (n : Int) : Option Value :=
  if -9223372036854775808 ≤ n ∧ n ≤ 9223372036854775807 then some (.integer n) else none

/-- The number of digits of a base. -/
def inBase (base : Nat) (ds : List Char) : Option Value := do
  let isDigit := fun c => match Json.hexValue? c with
    | some v => decide (v < base)
    | none => false
  let ds ← bareDigits isDigit ds
  let n ← ds.foldlM (fun n d => (Json.hexValue? d).map (base * n + ·)) 0
  fitted n

/-- Decimal digits without leading zeros. -/
def wholeDigits (ds : List Char) : Option (List Char) :=
  match bareDigits Char.isDigit ds with
  | some ('0' :: _ :: _) => none
  | run => run

/-- A float that is in range. -/
def inRange (x : Float) : Option Value :=
  if x.isFinite then some (.float x) else none

/-- A number without its sign. -/
def unsignedNumber? (negative : Bool) (s : List Char) : Option Value := do
  if s = "inf".toList then
    return .float (Decimal.withSign negative (1.0 / 0.0))
  else if s = "nan".toList then
    return .float (0.0 / 0.0)
  else
    let (whole, rest) := s.span fun c => c.isDigit || c = '_'
    let whole ← wholeDigits whole
    match rest with
    | [] => fitted (if negative then -(digitsValue whole : Int) else digitsValue whole)
    | _ =>
      let (fraction, rest) := match rest with
        | '.' :: rest =>
          let (ds, rest) := rest.span fun c => c.isDigit || c = '_'
          (bareDigits Char.isDigit ds, rest)
        | rest => (some [], rest)
      let fraction ← fraction
      let exponent ← match rest with
        | [] => some 0
        | 'e' :: rest | 'E' :: rest =>
          let (minus, ds) := Decimal.sign rest
          (bareDigits Char.isDigit ds).map fun ds =>
            if minus then -(digitsValue ds : Int) else (digitsValue ds : Int)
        | _ => none
      inRange (Decimal.withSign negative (Decimal.assemble whole fraction exponent))

/-- A number. -/
def number? (s : List Char) : Option Value :=
  match s with
  | '0' :: 'x' :: ds => inBase 16 ds
  | '0' :: 'o' :: ds => inBase 8 ds
  | '0' :: 'b' :: ds => inBase 2 ds
  | '-' :: s => unsignedNumber? true s
  | '+' :: s => unsignedNumber? false s
  | s => unsignedNumber? false s

/-! ## §2. Dates and times. -/

/-- A number of exactly `width` digits. -/
def fixedDigits (width : Nat) (s : List Char) : Option (Nat × List Char) :=
  let ds := s.take width
  if ds.length = width ∧ ds.all Char.isDigit then some (digitsValue ds, s.drop width) else none

/-- A date as its text. -/
def date? (s : List Char) : Option (List Char × List Char) := do
  let (y, s) ← fixedDigits 4 s
  let '-' :: s := s | none
  let (m, s) ← fixedDigits 2 s
  let '-' :: s := s | none
  let (d, s) ← fixedDigits 2 s
  if 1 ≤ d ∧ d ≤ Calendar.monthLength y m then
    return (padded 4 y ++ '-' :: padded 2 m ++ '-' :: padded 2 d, s)
  else none

/-- A fraction of a second, cut after nine digits, without zeros at its end. -/
def fractionText (ds : List Char) : List Char :=
  let kept := ((ds.take 9).reverse.dropWhile (· = '0')).reverse
  if kept.isEmpty then ['.', '0'] else '.' :: kept

/-- Seconds with their colon, and a fraction, where there are any. -/
def seconds? (s : List Char) : Option (List Char × List Char) := do
  match s with
  | ':' :: s =>
    let (sec, s) ← fixedDigits 2 s
    if sec ≤ 60 then
      match s with
      | '.' :: s =>
        match digitRun s with
        | ([], _) => none
        | (ds, s) => return (':' :: padded 2 sec ++ fractionText ds, s)
      | s => return (':' :: padded 2 sec, s)
    else none
  | s => return ([], s)

/-- A time of day as its text; seconds may be left out. -/
def time? (s : List Char) : Option (List Char × List Char) := do
  let (h, s) ← fixedDigits 2 s
  let ':' :: s := s | none
  let (m, s) ← fixedDigits 2 s
  if h ≤ 23 ∧ m ≤ 59 then
    let (sec, s) ← seconds? s
    return (padded 2 h ++ ':' :: padded 2 m ++ sec, s)
  else none

/-- An offset from UTC as its text, which may be missing; none at all is positive. -/
def offset? (s : List Char) : Option (List Char × List Char) := do
  match s with
  | 'Z' :: s | 'z' :: s => return (['Z'], s)
  | '+' :: rest | '-' :: rest =>
    let (h, rest) ← fixedDigits 2 rest
    let ':' :: rest := rest | none
    let (m, rest) ← fixedDigits 2 rest
    if h ≤ 23 ∧ m ≤ 59 then
      let sign := if h = 0 ∧ m = 0 then ['+'] else s.take 1
      return (sign ++ padded 2 h ++ ':' :: padded 2 m, rest)
    else none
  | s => return ([], s)

/-- A date, a time, or both, as the whole of a text. -/
def dateTime? (s : List Char) : Option Value :=
  match time? s with
  | some (t, []) => some (.text t)
  | some _ => none
  | none => do
    let (d, s) ← date? s
    match s with
    | [] => return .text d
    | sep :: s =>
      if sep = 'T' ∨ sep = 't' ∨ sep = ' ' then
        let (t, s) ← time? s
        let (o, s) ← offset? s
        if s.isEmpty then return .text (d ++ 'T' :: t ++ o) else none
      else none

/-! ## §3. Words. -/

/-- A character of a word. -/
def isWordChar (c : Char) : Bool :=
  c.isAlphanum || c = '_' || c = '+' || c = '-' || c = '.' || c = ':'

/-- A word off the front of a text; a date takes a time after a space with it. -/
def word (s : List Char) : List Char × List Char :=
  let (w, rest) := s.span isWordChar
  match rest with
  | ' ' :: h₁ :: h₂ :: ':' :: more =>
    if h₁.isDigit && h₂.isDigit && (date? w == some (w, [])) then
      let (t, after) := (h₁ :: h₂ :: ':' :: more).span isWordChar
      (w ++ ' ' :: t, after)
    else (w, rest)
  | _ => (w, rest)

/-- The value of a word. -/
def wordValue? (w : List Char) : Option Value :=
  if w = "true".toList then some (.boolean true)
  else if w = "false".toList then some (.boolean false)
  else
    match number? w with
    | some v => some v
    | none => dateTime? w

end HeatMeter.Toml
