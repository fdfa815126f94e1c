/-
  HeatMeter.Text.Utf8
  ───────────────────
  **BYTES AS UTF-8 TEXT.**

  `decode` splits bytes into characters and faults: a fault stands for a longest
  run of bytes that starts a character and cannot be continued, or for one byte
  that starts none.  Three readings of that list are used: text only if there is
  no fault (`text?`), text with U+FFFD for every fault (`lossy`), and the list
  itself, for a reader that can skip a faulty stretch.

  The lead byte fixes the length and, for E0, ED, F0 and F4, narrows the second
  byte, which excludes overlong forms, surrogates and values above U+10FFFF.
-/
namespace HeatMeter.Text.Utf8

/-- File contents. -/
abbrev Bytes := List UInt8

/-- A decoded piece of a byte string. -/
inductive Piece where
  /-- A character. -/
  | char (c : Char)
  /-- Bytes that are no character. -/
  | fault
  deriving DecidableEq, Repr

/-- Whether a byte continues a character. -/
def isTail (b : UInt8) : Bool :=
  0x80 ≤ b && b ≤ 0xBF

/-- Whether `b` may follow the lead byte `a` of a three-byte character. -/
def secondOfThree (a b : UInt8) : Bool :=
  if a == 0xE0 then 0xA0 ≤ b && b ≤ 0xBF
  else if a == 0xED then 0x80 ≤ b && b ≤ 0x9F
  else isTail b

/-- Whether `b` may follow the lead byte `a` of a four-byte character. -/
def secondOfFour (a b : UInt8) : Bool :=
  if a == 0xF0 then 0x90 ≤ b && b ≤ 0xBF
  else if a == 0xF4 then 0x80 ≤ b && b ≤ 0x8F
  else isTail b

/-- The low six bits of a tail byte below the bits read so far. -/
def extend (n : Nat) (b : UInt8) : Nat :=
  n * 64 + b.toNat % 64

/-- The pieces of a byte string, in order. -/
def decode : Bytes → List Piece
  | [] => []
  | a :: rest =>
    if a < 0x80 then .char (Char.ofNat a.toNat) :: decode rest
    else if 0xC2 ≤ a && a ≤ 0xDF then
      match rest with
      | b :: rest' =>
        if isTail b then .char (Char.ofNat (extend (a.toNat % 32) b)) :: decode rest'
        else .fault :: decode (b :: rest')
      | [] => [.fault]
    else if 0xE0 ≤ a && a ≤ 0xEF then
      match rest with
      | b :: c :: rest' =>
        if secondOfThree a b then
          if isTail c then
            .char (Char.ofNat (extend (extend (a.toNat % 16) b) c)) :: decode rest'
          else .fault :: decode (c :: rest')
        else .fault :: decode (b :: c :: rest')
      | [b] => if secondOfThree a b then [.fault] else .fault :: decode [b]
      | [] => [.fault]
    else if 0xF0 ≤ a && a ≤ 0xF4 then
      match rest with
      | b :: c :: d :: rest' =>
        if secondOfFour a b then
          if isTail c then
            if isTail d then
              .char (Char.ofNat (extend (extend (extend (a.toNat % 8) b) c) d))
                :: decode rest'
            else .fault :: decode (d :: rest')
          else .fault :: decode (c :: d :: rest')
        else .fault :: decode (b :: c :: d :: rest')
      | [b, c] =>
        if secondOfFour a b then
          if isTail c then [.fault] else .fault :: decode [c]
        else .fault :: decode [b, c]
      | [b] => if secondOfFour a b then [.fault] else .fault :: decode [b]
      | [] => [.fault]
    else .fault :: decode rest
  termination_by bytes => bytes.length

/-- The text of a byte string, if it is UTF-8 throughout. -/
def text? (bytes : Bytes) : Option (List Char) :=
  (decode bytes).mapM fun
    | .char c => some c
    | .fault => none

/-- The text of a byte string with U+FFFD in place of what is not UTF-8. -/
def lossy (bytes : Bytes) : List Char :=
  (decode bytes).map fun
    | .char c => c
    | .fault => Char.ofNat 0xFFFD

/-- The bytes of a text. -/
def encode (s : String) : Bytes :=
  s.toUTF8.toList

/-- The byte string without a byte order mark in front. -/
def dropMark : Bytes → Bytes
  | 0xEF :: 0xBB :: 0xBF :: rest => rest
  | bytes => bytes

end HeatMeter.Text.Utf8
