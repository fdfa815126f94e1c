/-
  HeatMeter.Toml.Reader
  ─────────────────────
  **READING TOML, LINE BY LINE.**

  A document is read into STATEMENTS: a header that opens a table, a header that
  adds a table to an array, or the assignment of a value to a key.  What the
  statements amount to is the subject of `HeatMeter.Toml.Document`.  Arrays and
  inline tables may spread over lines, hold comments and end in a comma; they nest
  80 deep at most.
-/
import HeatMeter.Toml.Scalar
import HeatMeter.Toml.Strings

namespace HeatMeter.Toml

/-- The text after a comment, if it starts with one; a comment ends before its
line break. -/
def afterComment? (s : List Char) : Option (List Char) :=
  match s with
  | '#' :: rest => some (rest.dropWhile isAllowed)
  | _ => none

/-- The text after blanks, line breaks and comments, where it may start inside a
comment. -/
def skipFiller : Bool → List Char → List Char
  | _, [] => []
  | _, '\r' :: '\n' :: rest => skipFiller false rest
  | inComment, c :: rest =>
    if c = '\n' then skipFiller false rest
    else if inComment then
      if isAllowed c then skipFiller true rest else c :: rest
    else if isBlank c then skipFiller false rest
    else if c = '#' then skipFiller true rest
    else c :: rest

/-- The text after blanks, line breaks and comments. -/
def skipAll (s : List Char) : List Char :=
  skipFiller false s

/-- A value as it is read: an inline table is a list of assignments. -/
inductive Raw where
  /-- A value without assignments in it. -/
  | value (v : Value)
  /-- Values in order. -/
  | array (items : List Raw)
  /-- Assignments in order. -/
  | inline (assignments : List (List String × Raw))

instance : Inhabited Raw := ⟨.array []⟩

mutual

/-- A value that nests no deeper than `room`, and what follows it. -/
def raw : Nat → Nat → List Char → Option (Raw × List Char)
  | 0, _, _ => none
  | fuel + 1, room, s =>
    match s, room with
    | '[' :: _, 0 | '{' :: _, 0 => none
    | '[' :: rest, room + 1 =>
      (rawItems fuel room rest).map fun (xs, rest) => (.array xs, rest)
    | '{' :: rest, room + 1 =>
      (rawMembers fuel room rest).map fun (ms, rest) => (.inline ms, rest)
    | _, _ =>
      match string? s with
      | some (t, rest) => some (.value (.text t), rest)
      | none =>
        match word s with
        | ([], _) => none
        | (w, rest) => (wordValue? w).map fun v => (.value v, rest)

/-- The items of an array that are left, with its closing bracket. -/
def rawItems : Nat → Nat → List Char → Option (List Raw × List Char)
  | 0, _, _ => none
  | fuel + 1, room, s =>
    match skipAll s with
    | ']' :: rest => some ([], rest)
    | s =>
      match raw fuel room s with
      | none => none
      | some (x, rest) =>
        match skipAll rest with
        | ',' :: rest => (rawItems fuel room rest).map fun (xs, rest) => (x :: xs, rest)
        | ']' :: rest => some ([x], rest)
        | _ => none

/-- The assignments of an inline table that are left, with its closing brace. -/
def rawMembers :
    Nat → Nat → List Char → Option (List (List String × Raw) × List Char)
  | 0, _, _ => none
  | fuel + 1, room, s =>
    match skipAll s with
    | '}' :: rest => some ([], rest)
    | s =>
      match rawMember fuel room s with
      | none => none
      | some (m, rest) =>
        match skipAll rest with
        | ',' :: rest => (rawMembers fuel room rest).map fun (ms, rest) => (m :: ms, rest)
        | '}' :: rest => some ([m], rest)
        | _ => none

/-- An assignment of an inline table; lines may break around its sign. -/
def rawMember : Nat → Nat → List Char → Option ((List String × Raw) × List Char)
  | 0, _, _ => none
  | fuel + 1, room, s =>
    match key s with
    | none => none
    | some (k, rest) =>
      match skipAll rest with
      | '=' :: rest => (raw fuel room (skipAll rest)).map fun (x, rest) => ((k, x), rest)
      | _ => none

end

/-- One line's worth of a document. -/
inductive Statement where
  /-- Open a table. -/
  | table (path : List String)
  /-- Add a table to an array of tables and open it. -/
  | element (path : List String)
  /-- Give a key of the open table a value. -/
  | assign (path : List String) (value : Raw)

/-- A statement and what follows it. -/
def statement (s : List Char) : Option (Statement × List Char) :=
  match s with
  | '[' :: '[' :: rest =>
    match key rest with
    | some (k, ']' :: ']' :: rest) => some (.element k, rest)
    | _ => none
  | '[' :: rest =>
    match key rest with
    | some (k, ']' :: rest) => some (.table k, rest)
    | _ => none
  | s =>
    match key s with
    | some (k, '=' :: rest) =>
      let rest := skipBlanks rest
      (raw (3 * rest.length + 1) deepest rest).map fun (x, rest) => (.assign k x, rest)
    | _ => none

/-- The text after the end of a line, blanks and a comment before it included. -/
def lineEnd? (s : List Char) : Option (List Char) :=
  let s := skipBlanks s
  match (afterComment? s).getD s with
  | [] => some []
  | rest => afterLineBreak? rest

/-- The statements of a document. -/
def statements : Nat → List Char → Option (List Statement)
  | 0, _ => none
  | fuel + 1, s =>
    match skipAll s with
    | [] => some []
    | s =>
      match statement s with
      | none => none
      | some (st, rest) =>
        match lineEnd? rest with
        | none => none
        | some rest => (statements fuel rest).map (st :: ·)

end HeatMeter.Toml
