/-
  HeatMeter.Json.Reader
  ─────────────────────
  **READING JSON.**

  The grammar is strict: no comments, no trailing commas, no byte order mark, no
  leading zeros or bare points in numbers, nothing but white space around the
  document.  Arrays and objects may nest to any depth; a reader that wants a
  limit asks for the depth afterwards (`HeatMeter.Json.Shape`).

  A number that is not whole is read as the float nearest to it, however many
  digits it has.  That is an ASSUMPTION: a reader that gives up the last bit for
  speed reads some texts of many digits as a neighbour of that float, and what is
  said of such texts here is not said of it.

  The three functions that call each other take fuel.  No two calls in a row leave
  the text as it is, so twice the number of characters is enough.
-/
import HeatMeter.Decimal.Read
import HeatMeter.Json
import HeatMeter.Json.Strings
import HeatMeter.Text.Utf8

namespace HeatMeter.Json

open Text

/-- White space of JSON. -/
def isSpace (c : Char) : Bool :=
  c = ' ' || c = '\n' || c = '\r' || c = '\t'

/-- A text without the white space it starts with. -/
def skipSpace (s : List Char) : List Char :=
  s.dropWhile isSpace

/-- The text after a word that it starts with. -/
def afterWord : List Char → List Char → Option (List Char)
  | [], s => some s
  | c :: word, d :: s => if c = d then afterWord word s else none
  | _ :: _, [] => none

/-! ## §1. Numbers. -/

/-- The whole part of a number: a zero, or digits that start with another. -/
def wholePart (s : List Char) : Option (List Char × List Char) :=
  match digitRun s with
  | ([], _) => none
  | ('0' :: _ :: _, _) => none
  | run => some run

/-- The digits after a point, none if there is no point. -/
def fractionPart (s : List Char) : Option (Option (List Char) × List Char) :=
  match s with
  | '.' :: rest =>
    match digitRun rest with
    | ([], _) => none
    | (ds, rest) => some (some ds, rest)
  | _ => some (none, s)

/-- The exponent after its letter, none if there is no letter. -/
def exponentPart (s : List Char) : Option (Option Int × List Char) :=
  match s with
  | 'e' :: rest | 'E' :: rest =>
    let (negative, rest) := Decimal.sign rest
    match digitRun rest with
    | ([], _) => none
    | (ds, rest) =>
      some (some (if negative then -(digitsValue ds : Int) else digitsValue ds), rest)
  | _ => some (none, s)

/-- The number of a whole part alone. -/
def wholeNumber (negative : Bool) (whole : List Char) : Json :=
  let n : Int := digitsValue whole
  let signed := if negative then -n else n
  if fits64 signed ∧ ¬(negative ∧ n = 0) then .integer signed
  else .real (Decimal.withSign negative (Decimal.toFloat n.toNat 0))

/-- A number after its sign. -/
def unsignedNumber (negative : Bool) (s : List Char) : Option (Json × List Char) := do
  let (whole, s) ← wholePart s
  let (fraction, s) ← fractionPart s
  let (exponent, s) ← exponentPart s
  match fraction, exponent with
  | none, none => return (wholeNumber negative whole, s)
  | _, _ =>
    let x := Decimal.assemble whole (fraction.getD []) (exponent.getD 0)
    return (.real (Decimal.withSign negative x), s)

/-- A number. -/
def number (s : List Char) : Option (Json × List Char) :=
  match s with
  | '-' :: rest => unsignedNumber true rest
  | _ => unsignedNumber false s

/-! ## §2. Values. -/

/-- A string after its opening quote. -/
def stringBody (s : List Char) : Option (Option String × List Char) := do
  let (ps, rest) ← pieces s
  return ((spell ps).map String.ofList, rest)

mutual

/-- A value and what follows it. -/
def value : Nat → List Char → Option (Json × List Char)
  | 0, _ => none
  | fuel + 1, s =>
    match skipSpace s with
    | 'n' :: rest => (afterWord "ull".toList rest).map fun rest => (.null, rest)
    | 't' :: rest => (afterWord "rue".toList rest).map fun rest => (.bool true, rest)
    | 'f' :: rest => (afterWord "alse".toList rest).map fun rest => (.bool false, rest)
    | '"' :: rest => (stringBody rest).map fun (s, rest) => (.string s, rest)
    | '[' :: rest =>
      match skipSpace rest with
      | ']' :: rest => some (.array [], rest)
      | rest => (items fuel rest).map fun (xs, rest) => (.array xs, rest)
    | '{' :: rest =>
      match skipSpace rest with
      | '}' :: rest => some (.object [], rest)
      | rest => (members fuel rest).map fun (ms, rest) => (.object ms, rest)
    | s => number s

/-- The items of an array from the first on, with its closing bracket. -/
def items : Nat → List Char → Option (List Json × List Char)
  | 0, _ => none
  | fuel + 1, s =>
    match value fuel s with
    | none => none
    | some (x, rest) =>
      match skipSpace rest with
      | ',' :: rest => (items fuel rest).map fun (xs, rest) => (x :: xs, rest)
      | ']' :: rest => some ([x], rest)
      | _ => none

/-- The members of an object from the first on, with its closing brace. -/
def members : Nat → List Char → Option (List (Option String × Json) × List Char)
  | 0, _ => none
  | fuel + 1, s =>
    match skipSpace s with
    | '"' :: rest =>
      match stringBody rest with
      | none => none
      | some (k, rest) =>
        match skipSpace rest with
        | ':' :: rest =>
          match value fuel rest with
          | none => none
          | some (x, rest) =>
            match skipSpace rest with
            | ',' :: rest => (members fuel rest).map fun (ms, rest) => ((k, x) :: ms, rest)
            | '}' :: rest => some ([(k, x)], rest)
            | _ => none
        | _ => none
    | _ => none

end

/-- The document that is the whole of a text. -/
def parse (s : List Char) : Option Json :=
  match value (2 * s.length + 1) s with
  | some (x, rest) => if (skipSpace rest).isEmpty then some x else none
  | none => none

/-- The document that is the whole of a byte string.

Bytes that are not UTF-8 are shown to the reader as a letter and two low
surrogates.  That is no JSON outside a string, makes no escape after a backslash,
and inside a string spells no text whatever stands around it: so a document may
hold such bytes exactly in strings that are skipped. -/
def parseBytes (bytes : Utf8.Bytes) : Option Json :=
  parse <| (Utf8.decode bytes).flatMap fun
    | .char c => [c]
    | .fault => "x\\udc00\\udc00".toList

end HeatMeter.Json
