/-
  HeatMeter.Toml.Document
  ───────────────────────
  **WHAT THE STATEMENTS OF A DOCUMENT AMOUNT TO.**

  A table remembers how it came about, for that decides what may be added to it:

      implied   by a header for a table inside it; a header may still open it,
                or dotted keys extend it
      dotted    by a dotted key, or implied and extended by one; other dotted
                keys may extend it, headers may only open tables inside it
      opened    by its own header; nothing but its section and headers for tables
                inside it adds to it

  A key is given a value once.  Arrays and inline tables are closed: nothing is
  added to them later.  A header or dotted key that passes through an array of
  tables means its last element, which a dotted key may not add to itself.  A
  document may start with a byte order mark.
-/
import HeatMeter.Keyed
import HeatMeter.Toml.Reader

namespace HeatMeter.Toml

/-- How a table came about. -/
inductive Origin where
  /-- By a header for a table inside it. -/
  | implied
  /-- By a dotted key. -/
  | dotted
  /-- By its own header. -/
  | opened
  deriving DecidableEq, Repr

/-- What a key of a document under construction stands for. -/
inductive Node where
  /-- A closed value. -/
  | leaf (v : Value)
  /-- A table that may still grow. -/
  | table (origin : Origin) (entries : List (String × Node))
  /-- An array of tables of which the last may still grow. -/
  | tables (earlier : List (List (String × Node))) (latest : List (String × Node))

instance : Inhabited Node := ⟨.leaf default⟩

/-- The entries of a table under construction. -/
abbrev Entries := List (String × Node)

mutual

/-- The value that a node is in the end. -/
def Node.finish : Node → Value
  | .leaf v => v
  | .table _ es => .table (finishEntries es)
  | .tables earlier latest =>
    .array (finishTables earlier ++ [.table (finishEntries latest)])

/-- Entries as they are in the end. -/
def finishEntries : List (String × Node) → Table
  | [] => []
  | (k, n) :: rest => (k, n.finish) :: finishEntries rest

/-- Tables as they are in the end. -/
def finishTables : List (List (String × Node)) → List Value
  | [] => []
  | es :: rest => .table (finishEntries es) :: finishTables rest

end

/-- Give a key, dotted or not, a value. -/
def assign : List String → Value → Entries → Option Entries
  | [], _, _ => none
  | [k], v, es => if (es.lookup k).isSome then none else some (Keyed.put k (.leaf v) es)
  | k :: rest, v, es =>
    match es.lookup k with
    | none => (assign rest v []).map fun inner => Keyed.put k (.table .dotted inner) es
    | some (.table origin inner) =>
      if origin = .opened then none
      else (assign rest v inner).map fun inner => Keyed.put k (.table .dotted inner) es
    | some (.tables earlier latest) =>
      if rest.length = 1 then none
      else (assign rest v latest).map fun latest => Keyed.put k (.tables earlier latest) es
    | some (.leaf _) => none

/-- Apply a change to the last part of a path, making tables on the way. -/
def along (change : String → Entries → Option Entries) :
    List String → Entries → Option Entries
  | [], _ => none
  | [k], es => change k es
  | k :: rest, es =>
    match es.lookup k with
    | none => (along change rest []).map fun inner => Keyed.put k (.table .implied inner) es
    | some (.table origin inner) =>
      (along change rest inner).map fun inner => Keyed.put k (.table origin inner) es
    | some (.tables earlier latest) =>
      (along change rest latest).map fun latest => Keyed.put k (.tables earlier latest) es
    | some (.leaf _) => none

/-- Open a table. -/
def openTable : List String → Entries → Option Entries :=
  along fun k es =>
    match es.lookup k with
    | none => some (Keyed.put k (.table .opened []) es)
    | some (.table .implied inner) => some (Keyed.put k (.table .opened inner) es)
    | some _ => none

/-- Add a table to an array of tables. -/
def addElement : List String → Entries → Option Entries :=
  along fun k es =>
    match es.lookup k with
    | none => some (Keyed.put k (.tables [] []) es)
    | some (.tables earlier latest) => some (Keyed.put k (.tables (earlier ++ [latest]) []) es)
    | some _ => none

/-- Apply a change to the table that a path leads to. -/
def inside (change : Entries → Option Entries) : List String → Entries → Option Entries
  | [], es => change es
  | k :: rest, es =>
    match es.lookup k with
    | some (.table origin inner) =>
      (inside change rest inner).map fun inner => Keyed.put k (.table origin inner) es
    | some (.tables earlier latest) =>
      (inside change rest latest).map fun latest => Keyed.put k (.tables earlier latest) es
    | _ => none

mutual

/-- The value of what was read, if its inline tables give each key once. -/
def Raw.value? : Raw → Option Value
  | .value v => some v
  | .array xs => (rawValues? xs).map .array
  | .inline ms => (rawTable? [] ms).map fun es => .table (finishEntries es)

/-- The values of what was read. -/
def rawValues? : List Raw → Option (List Value)
  | [] => some []
  | x :: rest =>
    match x.value?, rawValues? rest with
    | some v, some vs => some (v :: vs)
    | _, _ => none

/-- Entries with the assignments of an inline table. -/
def rawTable? : Entries → List (List String × Raw) → Option Entries
  | es, [] => some es
  | es, (k, x) :: rest =>
    match x.value? with
    | none => none
    | some v =>
      match assign k v es with
      | none => none
      | some es => rawTable? es rest

end

/-- Entries after some statements, the table at a path being open. -/
def build : List String → Entries → List Statement → Option Entries
  | _, es, [] => some es
  | _, es, .table path :: rest => (openTable path es).bind fun es => build path es rest
  | _, es, .element path :: rest => (addElement path es).bind fun es => build path es rest
  | path, es, .assign k x :: rest =>
    match x.value? with
    | none => none
    | some v => (inside (assign k v) path es).bind fun es => build path es rest

/-- A text without the byte order mark it starts with. -/
def skipMark : List Char → List Char
  | '\uFEFF' :: rest => rest
  | s => s

/-- The table that a document describes. -/
def parse (s : List Char) : Option Table := do
  let s := skipMark s
  let sts ← statements (s.length + 1) s
  let es ← build [] [] sts
  return finishEntries es

end HeatMeter.Toml
