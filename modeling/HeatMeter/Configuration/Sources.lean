/-
  HeatMeter.Configuration.Sources
  ───────────────────────────────
  **FROM A FILE AND AN ENVIRONMENT TO ONE TABLE.**

  Values are laid into the table source by source, first those of the
  configuration file and then those of the environment, which therefore win:

      table on table     the entries of the new one are laid into the old one
      any other value    takes the place of the old one

  The keys of the file's root and the names of the environment are paths
  (`HeatMeter.Configuration.Path`).  A variable counts if its name, with small
  letters, starts with `heatpump__`; each further `__` stands for a point.

  Two limits.  The file is a TOML file; one of the same name in another format is
  not looked for.  Variables are laid in the order of their list, so that of two for
  one path, or for a path and a part of it, the later one wins; where the system
  lists its variables in no certain order, neither is the winner certain.
-/
import HeatMeter.Configuration.Path
import HeatMeter.Text.Blank
import HeatMeter.Text.Utf8
import HeatMeter.Toml.Document

namespace HeatMeter.Configuration

open Text
open Toml (Table Value)

/-! ## §1. Laying values into a table. -/

mutual

/-- A value after another has been laid on it. -/
def overlay (base : Value) : Value → Value
  | .table incoming => .table (overlayEntries base.entries incoming)
  | v => v

/-- Entries after others have been laid into them. -/
def overlayEntries (es : Table) : List (String × Value) → Table
  | [] => es
  | (k, v) :: rest =>
    overlayEntries (Keyed.put k (overlay ((es.lookup k).getD .unset) v) es) rest

end

/-- Entries after all values have been laid at their paths. -/
def layAll (values : List (List Char × Value)) (es : Table) : Table :=
  values.foldl (fun es (key, v) => (Path.ofKey key).change (overlay · v) es) es

/-! ## §2. Sources. -/

/-- Variables by name. -/
abbrev Environment := List (String × String)

/-- A small letter for a capital one that has one among the ASCII letters: those
of ASCII itself, and the sign for kelvin. -/
def smallLetter (c : Char) : Char :=
  if c = Char.ofNat 0x212A then 'k' else c.toLower

/-- A text with each pair of underscores, from the left, turned into a point. -/
def pointsForPairs : List Char → List Char
  | '_' :: '_' :: rest => '.' :: pointsForPairs rest
  | c :: rest => c :: pointsForPairs rest
  | [] => []

/-- The start of the names that count. -/
def variableStart : List Char :=
  "heatpump__".toList

/-- The path that a variable's name means, if it counts. -/
def variablePath? (name : String) : Option (List Char) :=
  let name := name.toList.map smallLetter
  if variableStart.isPrefixOf name then some (pointsForPairs (name.drop variableStart.length))
  else none

/-- The values that an environment gives. -/
def Environment.values (env : Environment) : List (List Char × Value) :=
  env.filterMap fun (name, value) =>
    (variablePath? name).map fun path => (path, .text value.toList)

/-- The table of a configuration file; what is not UTF-8 in it counts as U+FFFD. -/
def fileTable? (content : Utf8.Bytes) : Option Table :=
  Toml.parse (Utf8.lossy (Utf8.dropMark content))

/-- The table of a file, if there is one, and an environment. -/
def table? (file : Option Utf8.Bytes) (env : Environment) : Option Table :=
  let root := match file with
    | some content => fileTable? content
    | none => some []
  root.map fun es =>
    layAll env.values (layAll (es.map fun (k, v) => (k.toList, v)) [])

end HeatMeter.Configuration
