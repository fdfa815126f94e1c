/-
  HeatMeter.Data.Log
  ──────────────────
  **LOGS OF RECORDS.**

  A log is a text file with a record a line.  Lines that hold no record, blank
  ones among them, are passed over.  The records come out in order of time
  whatever the order of the lines.
-/
import HeatMeter.Data.Reading
import HeatMeter.Json.Reader

namespace HeatMeter.Log

open Text

/-- The lines of a text.  A line ends at a line feed, and a carriage return before it
belongs to the end. -/
def lines : List Char → List (List Char)
  | [] => [[]]
  | '\n' :: rest => [] :: lines rest
  | '\r' :: '\n' :: rest => [] :: lines rest
  | c :: rest =>
    match lines rest with
    | [] => [[c]]
    | line :: more => (c :: line) :: more

/-- The record on a line, if it holds one. -/
def record? (line : List Char) : Option (Record Float) :=
  (Json.parse line).bind Record.ofJson?

/-- The records of a text, in order of time. -/
def records (text : List Char) : List (Record Float) :=
  Record.inOrder ((lines text).filterMap record?)

/-- The records of a file, if it is a text. -/
def read? (content : Utf8.Bytes) : Option (List (Record Float)) :=
  (Utf8.text? content).map records

end HeatMeter.Log
