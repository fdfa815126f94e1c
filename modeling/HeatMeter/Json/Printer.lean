/-
  HeatMeter.Json.Printer
  ──────────────────────
  **WRITING JSON.**

  A document is written compactly, on one line without spaces, or laid out with
  one item or member a line and two spaces of indentation a level; what is empty
  stays on one line.  A real that is not finite is written as `null`.
-/
import HeatMeter.Decimal.Layout
import HeatMeter.Json
import HeatMeter.Json.Strings

namespace HeatMeter.Json

open Text

/-- Texts with a separator between them. -/
def separated (separator : List Char) : List (List Char) → List Char
  | [] => []
  | [x] => x
  | x :: rest => x ++ separator ++ separated separator rest

/-- A string; one that spells no text is written as if empty. -/
def stringText (s : Option String) : List Char :=
  quoted ((s.map String.toList).getD [])

/-- A real as data. -/
def realText (x : Float) : List Char :=
  (Decimal.data? x).getD "null".toList

mutual

/-- A document on one line. -/
def compact : Json → List Char
  | .null => "null".toList
  | .bool b => (if b then "true" else "false").toList
  | .integer n => signedDecimal n
  | .real x => realText x
  | .string s => stringText s
  | .array xs => '[' :: separated [','] (compactItems xs) ++ [']']
  | .object ms => '{' :: separated [','] (compactMembers ms) ++ ['}']

/-- Items on one line each. -/
def compactItems : List Json → List (List Char)
  | [] => []
  | x :: rest => compact x :: compactItems rest

/-- Members on one line each. -/
def compactMembers : List (Option String × Json) → List (List Char)
  | [] => []
  | (k, x) :: rest => (stringText k ++ ':' :: compact x) :: compactMembers rest

end

/-- A line break and the indentation of a level. -/
def lineBreak (level : Nat) : List Char :=
  '\n' :: List.replicate (2 * level) ' '

/-- Laid-out texts between brackets. -/
def block (level : Nat) (opening closing : Char) (texts : List (List Char)) : List Char :=
  if texts.isEmpty then [opening, closing]
  else
    opening :: lineBreak (level + 1)
      ++ separated (',' :: lineBreak (level + 1)) texts ++ lineBreak level ++ [closing]

mutual

/-- A document laid out at a level. -/
def laidOut : Nat → Json → List Char
  | _, .null => "null".toList
  | _, .bool b => (if b then "true" else "false").toList
  | _, .integer n => signedDecimal n
  | _, .real x => realText x
  | _, .string s => stringText s
  | level, .array xs => block level '[' ']' (laidOutItems (level + 1) xs)
  | level, .object ms => block level '{' '}' (laidOutMembers (level + 1) ms)

/-- Items laid out at a level. -/
def laidOutItems : Nat → List Json → List (List Char)
  | _, [] => []
  | level, x :: rest => laidOut level x :: laidOutItems level rest

/-- Members laid out at a level. -/
def laidOutMembers : Nat → List (Option String × Json) → List (List Char)
  | _, [] => []
  | level, (k, x) :: rest =>
    (stringText k ++ ':' :: ' ' :: laidOut level x) :: laidOutMembers level rest

end

/-- A document laid out over lines. -/
def pretty (x : Json) : List Char :=
  laidOut 0 x

end HeatMeter.Json
