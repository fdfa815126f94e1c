/-
  HeatMeter.Toml.Strings
  ──────────────────────
  **STRINGS AND KEYS OF TOML.**

  There are four kinds of string: between quotes, with escapes; between
  apostrophes, as it stands; and both over several lines between three of either.
  A string over lines keeps its line breaks as they are, leaves out one right after
  its opening, and may end in one or two more of its delimiters.  A backslash at the
  end of a line removes the break and the blanks and breaks after it.
-/
import HeatMeter.Json.Strings

namespace HeatMeter.Toml

/-- Whether a character may stand in a string or a comment. -/
def isAllowed (c : Char) : Bool :=
  c = '\t' || (32 ≤ c.toNat && c.toNat ≠ 127)

/-- A blank between the parts of a line. -/
def isBlank (c : Char) : Bool :=
  c = ' ' || c = '\t'

/-- A text without the blanks it starts with. -/
def skipBlanks (s : List Char) : List Char :=
  s.dropWhile isBlank

/-- The text after a line break that it starts with. -/
def afterLineBreak? : List Char → Option (List Char)
  | '\n' :: rest => some rest
  | '\r' :: '\n' :: rest => some rest
  | _ => none

/-- The value of hexadecimal digits. -/
def hexNumber? (ds : List Char) : Option Nat :=
  ds.foldlM (fun n d => (Json.hexValue? d).map (16 * n + ·)) 0

/-- The character of a code point, if it is one. -/
def scalar? (n : Nat) : Option Char :=
  if n.isValidChar then some (Char.ofNat n) else none

/-- The character of `count` hexadecimal digits, and what follows them. -/
def hexEscape? (count : Nat) (s : List Char) : Option (Char × List Char) := do
  let ds := s.take count
  if ds.length = count then
    return (← scalar? (← hexNumber? ds), s.drop count)
  else none

/-- The character of an escape, after the backslash, and what follows it. -/
def escape? : List Char → Option (Char × List Char)
  | 'b' :: rest => some (Char.ofNat 8, rest)
  | 't' :: rest => some ('\t', rest)
  | 'n' :: rest => some ('\n', rest)
  | 'f' :: rest => some (Char.ofNat 12, rest)
  | 'r' :: rest => some ('\r', rest)
  | 'e' :: rest => some (Char.ofNat 27, rest)
  | '"' :: rest => some ('"', rest)
  | '\\' :: rest => some ('\\', rest)
  | 'x' :: rest => hexEscape? 2 rest
  | 'u' :: rest => hexEscape? 4 rest
  | 'U' :: rest => hexEscape? 8 rest
  | _ => none

/-- The rest of a string on one line, with escapes, after its opening quote. -/
def basic : Nat → List Char → Option (List Char × List Char)
  | 0, _ => none
  | fuel + 1, s =>
    match s with
    | '"' :: rest => some ([], rest)
    | '\\' :: rest => do
      let (c, rest) ← escape? rest
      let (cs, rest) ← basic fuel rest
      return (c :: cs, rest)
    | c :: rest => do
      if isAllowed c then
        let (cs, rest) ← basic fuel rest
        return (c :: cs, rest)
      else none
    | [] => none

/-- The rest of a string on one line, as it stands, after its opening apostrophe. -/
def literal : List Char → Option (List Char × List Char)
  | '\'' :: rest => some ([], rest)
  | c :: rest =>
    if isAllowed c then (literal rest).map fun (cs, rest) => (c :: cs, rest) else none
  | [] => none

/-- The end of a string over lines at three or more of its delimiters: two of them
at most belong to the string. -/
def closing (q : Char) (s : List Char) : Option (List Char × List Char) :=
  let run := s.takeWhile (· = q)
  let kept := min (run.length - 3) 2
  if 3 ≤ run.length then some (List.replicate kept q, s.drop (kept + 3)) else none

/-- A text without the blanks and line breaks it starts with. -/
def skipSpace : List Char → List Char
  | '\r' :: '\n' :: rest => skipSpace rest
  | c :: rest => if isBlank c || c = '\n' then skipSpace rest else c :: rest
  | [] => []

/-- The text after a backslash at the end of a line: after the break and after all
the blanks and breaks that follow. -/
def afterContinuation? (s : List Char) : Option (List Char) :=
  (afterLineBreak? (skipBlanks s)).map skipSpace

/-- The rest of a string over lines between `q`s; escapes are read if `q` is a
quote. -/
def multiline (q : Char) : Nat → List Char → Option (List Char × List Char)
  | 0, _ => none
  | fuel + 1, s =>
    match closing q s with
    | some done => some done
    | none =>
      match s with
      | [] => none
      | '\r' :: '\n' :: rest =>
        (multiline q fuel rest).map fun (cs, rest) => ('\r' :: '\n' :: cs, rest)
      | c :: rest =>
        if c = '\\' ∧ q = '"' then
          match afterContinuation? rest with
          | some rest => multiline q fuel rest
          | none => do
            let (e, rest) ← escape? rest
            let (cs, rest) ← multiline q fuel rest
            return (e :: cs, rest)
        else if isAllowed c || c = '\n' then
          (multiline q fuel rest).map fun (cs, rest) => (c :: cs, rest)
        else none

/-- The text of a string over lines, after its three opening delimiters. -/
def overLines (q : Char) (s : List Char) : Option (List Char × List Char) :=
  multiline q (s.length + 1) ((afterLineBreak? s).getD s)

/-- A string of any kind, if the text starts with one. -/
def string? (s : List Char) : Option (List Char × List Char) :=
  match s with
  | '"' :: '"' :: '"' :: rest => overLines '"' rest
  | '\'' :: '\'' :: '\'' :: rest => overLines '\'' rest
  | '"' :: rest => basic (rest.length + 1) rest
  | '\'' :: rest => literal rest
  | _ => none

/-! ## Keys. -/

/-- A character of a bare key. -/
def isBareKey (c : Char) : Bool :=
  c.isAlphanum || c = '_' || c = '-'

/-- One part of a key: bare, or a string on one line. -/
def keyPart (s : List Char) : Option (String × List Char) :=
  match s with
  | '"' :: rest => (basic (rest.length + 1) rest).map fun (k, rest) => (String.ofList k, rest)
  | '\'' :: rest => (literal rest).map fun (k, rest) => (String.ofList k, rest)
  | s =>
    match s.span isBareKey with
    | ([], _) => none
    | (k, rest) => some (String.ofList k, rest)

/-- How many parts a key has and how deep values nest at most. -/
def deepest : Nat := 80

/-- The parts of a key, as many as are allowed, with points and blanks between
them. -/
def keyParts : Nat → List Char → Option (List String × List Char)
  | 0, _ => none
  | allowed + 1, s => do
    let (k, rest) ← keyPart (skipBlanks s)
    match skipBlanks rest with
    | '.' :: rest =>
      let (ks, rest) ← keyParts allowed rest
      return (k :: ks, rest)
    | rest => return ([k], rest)

/-- A key of one or more parts. -/
def key (s : List Char) : Option (List String × List Char) :=
  keyParts deepest s

end HeatMeter.Toml
