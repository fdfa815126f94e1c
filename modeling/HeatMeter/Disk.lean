/-
  HeatMeter.Disk
  ──────────────
  **FILES, FOLDERS AND THE NAMES THAT LEAD TO THEM.**

  A disk holds the contents of files by LOCATION, the steps from the working
  folder down; every step above a file is a folder.  A path is walked step by
  step, and every step must be taken from a folder that is there:

      `.` and nothing between two `/`   stay where they are
      `..`                              goes up; above the working folder there
                                        are folders without end
      a path that starts with `/`       is walked from the root, which is kept
                                        apart from the working folder

  A path with a zero character in it, or of more than 4095 bytes, leads nowhere, and
  no folder has a name of more than 255 bytes in it.

  Reading gives the content of a file.  Writing makes a file or replaces its
  content and touches no other file; it makes no folder.
-/
import HeatMeter.Keyed
import HeatMeter.Text.Utf8

namespace HeatMeter

open Text.Utf8 (Bytes)

/-- The steps to a file or folder. -/
abbrev Location := List String

/-- Why a path cannot be read or written. -/
inductive DiskFault where
  /-- There is no such file or folder. -/
  | notFound
  /-- A step is taken from a file. -/
  | notFolder
  /-- A folder has no content. -/
  | isFolder
  /-- A path, or a name in it, is too long. -/
  | tooLong
  /-- A path has a zero character in it. -/
  | zeroInPath
  deriving DecidableEq, Repr

/-- The text of a disk fault. -/
def DiskFault.message : DiskFault → String
  | .notFound => "No such file or directory (os error 2)"
  | .notFolder => "Not a directory (os error 20)"
  | .isFolder => "Is a directory (os error 21)"
  | .tooLong => "File name too long (os error 36)"
  | .zeroInPath => "file name contained an unexpected NUL byte"

/-- The files of a disk, and folders that may be empty. -/
structure Disk where
  /-- Contents by location. -/
  files : List (Location × Bytes)
  /-- Folders that are there without a file in them. -/
  folders : List Location := []

namespace Disk

/-! ## §1. What is where. -/

/-- The content of the file at a location. -/
def content? (d : Disk) (l : Location) : Option Bytes :=
  d.files.lookup l

/-- Whether a location lies at or below another. -/
def isWithin (l above : Location) : Bool :=
  above.isPrefixOf l

/-- Whether a location lies above the working folder, or at the root. -/
def isOutside (l : Location) : Bool :=
  l = ["/"] || l.all (· = "..")

/-- Whether there is a folder at a location. -/
def isFolder (d : Disk) (l : Location) : Bool :=
  isOutside l || d.folders.any (fun f => isWithin f l)
    || d.files.any fun (f, _) => f ≠ l && isWithin f l

/-! ## §2. Walking a path. -/

/-- The parts of a path between its strokes. -/
def parts : List Char → List (List Char)
  | [] => [[]]
  | c :: rest =>
    match parts rest with
    | [] => [[c]]
    | part :: more => if c = '/' then [] :: part :: more else (c :: part) :: more

/-- The location one step up. -/
def parent (l : Location) : Location :=
  if l = ["/"] then l
  else if l.all (· = "..") then ".." :: l
  else l.dropLast

/-- The location a step leads to. -/
def step (l : Location) (part : String) : Location :=
  if part = "" ∨ part = "." then l else if part = ".." then parent l else l ++ [part]

/-- The most bytes in the name of a file or folder. -/
def longestName : Nat := 255

/-- The most bytes in a path. -/
def longestPath : Nat := 4095

/-- The location that some steps lead to. -/
def walk (d : Disk) : Location → List String → Except DiskFault Location
  | l, [] => .ok l
  | l, part :: rest =>
    if !d.isFolder l then
      .error (if (d.content? l).isSome then .notFolder else .notFound)
    else if longestName < part.utf8ByteSize then .error .tooLong
    else walk d (step l part) rest

/-- Why a path leads nowhere on any disk. -/
def pathFault? (path : String) : Option DiskFault :=
  if path.toList.contains (Char.ofNat 0) then some .zeroInPath
  else if path = "" then some .notFound
  else if longestPath < path.utf8ByteSize then some .tooLong
  else none

/-- Where a path starts, and its steps. -/
def start (path : String) : Location × List String :=
  let steps := (parts path.toList).map String.ofList
  match steps with
  | "" :: _ :: _ => (["/"], steps)
  | _ => ([], steps)

/-- The location that a path leads to. -/
def locate (d : Disk) (path : String) : Except DiskFault Location :=
  match pathFault? path with
  | some fault => .error fault
  | none =>
    let (l, steps) := start path
    walk d l steps

/-- The location that a path to be written leads to; a path that ends in a stroke
means a folder, whether it is there or not, in a folder that is there. -/
def locateForWriting (d : Disk) (path : String) : Except DiskFault Location :=
  match pathFault? path with
  | some fault => .error fault
  | none =>
    let (l, steps) := start path
    match steps.reverse with
    | "" :: earlier =>
      match walk d l ((earlier.dropWhile (· = "")).tail.reverse ++ ["."]) with
      | .ok _ => .error .isFolder
      | .error e => .error e
    | _ => walk d l steps

/-! ## §3. Reading and writing. -/

/-- Whether a path leads to a file or a folder. -/
def contains (d : Disk) (path : String) : Bool :=
  match d.locate path with
  | .ok l => d.isFolder l || (d.content? l).isSome
  | .error _ => false

/-- The content of the file that a path leads to. -/
def read (d : Disk) (path : String) : Except DiskFault Bytes :=
  match d.locate path with
  | .error e => .error e
  | .ok l =>
    if d.isFolder l then .error .isFolder
    else
      match d.content? l with
      | some bytes => .ok bytes
      | none => .error .notFound

/-- The disk with the content of the file that a path leads to replaced. -/
def write (d : Disk) (path : String) (bytes : Bytes) : Except DiskFault Disk :=
  match d.locateForWriting path with
  | .error e => .error e
  | .ok l =>
    if d.isFolder l then .error .isFolder
    else .ok { d with files := Keyed.put l bytes d.files }

end Disk

end HeatMeter
