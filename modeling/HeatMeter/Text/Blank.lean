/-
  HeatMeter.Text.Blank
  ────────────────────
  **BLANK CHARACTERS AND LETTER CASE.**

  A character is blank if it has the Unicode property White_Space.  Letter case
  is folded for ASCII letters only, so that no letter of another script is taken
  for one of a keyword's.
-/
namespace HeatMeter.Text

/-- The Unicode property White_Space. -/
def isBlank (c : Char) : Bool :=
  let n := c.toNat
  (9 ≤ n && n ≤ 13) || n == 0x20 || n == 0x85 || n == 0xA0 || n == 0x1680
    || (0x2000 ≤ n && n ≤ 0x200A) || n == 0x2028 || n == 0x2029 || n == 0x202F
    || n == 0x205F || n == 0x3000

/-- A text without the blanks it starts with. -/
def dropBlanks (s : List Char) : List Char :=
  s.dropWhile isBlank

/-- A text without the blanks it ends with. -/
def dropTrailingBlanks : List Char → List Char
  | [] => []
  | c :: s =>
    match dropTrailingBlanks s with
    | [] => if isBlank c then [] else [c]
    | rest => c :: rest

/-- A text without the blanks at either end. -/
def trim (s : List Char) : List Char :=
  dropTrailingBlanks (dropBlanks s)

/-- A text with its ASCII capitals made small. -/
def lowerAscii (s : List Char) : List Char :=
  s.map Char.toLower

end HeatMeter.Text
