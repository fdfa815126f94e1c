/-
  HeatMeter.Proofs.Text.Utf8
  ──────────────────────────
  **THE BYTES OF A TEXT ARE DECODED TO THE TEXT.**

  A character is written in one to four bytes by the size of its number.  Each size has
  its own lead bytes, and a character never lies where a second byte is narrowed: it is
  not written longer than it has to be, is no surrogate and is at most U+10FFFF.

      decode_char      one character
      decode_encode    a text
      text?_encode     the bytes of a text hold no fault
-/
import HeatMeter.Text.Utf8
import Mathlib

namespace HeatMeter.Text.Utf8

/-! ## §1. The bytes of a text. -/

theorem toList_loop (bytes : ByteArray) (i : Nat) (read : List UInt8) :
    ByteArray.toList.loop bytes i read = read.reverse ++ bytes.data.toList.drop i := by
  induction i, read using ByteArray.toList.loop.induct bytes with
  | case1 i read h ih =>
    have hi : i < bytes.data.toList.length := h
    rw [ByteArray.toList.loop, if_pos h, ih, List.reverse_cons, List.append_assoc,
      List.drop_eq_getElem_cons hi]
    have hget : bytes.get! i = bytes.data.toList[i] := getElem!_pos bytes.data i h
    rw [hget]
    rfl
  | case2 i read h =>
    have hi : bytes.data.toList.length ≤ i := not_lt.1 h
    rw [ByteArray.toList.loop, if_neg h, List.drop_eq_nil_of_le hi, List.append_nil]

theorem encode_eq (s : String) : encode s = s.toList.flatMap String.utf8EncodeChar := by
  unfold encode ByteArray.toList
  rw [toList_loop, String.toUTF8_eq_toByteArray, ← String.utf8Encode_toList]
  unfold List.utf8Encode
  rw [List.data_toByteArray]
  rfl

/-! ## §2. Characters. -/

theorem toNat_ofNat {n : Nat} (h : n < 256) : (UInt8.ofNat n).toNat = n := by
  rw [UInt8.toNat_ofNat']
  exact Nat.mod_eq_of_lt h

/-- Whether a byte lies between two others. -/
theorem within_iff (low high : Nat) (hlow : low < 256) (hhigh : high < 256) (b : UInt8) :
    (decide (UInt8.ofNat low ≤ b) && decide (b ≤ UInt8.ofNat high)) = true
      ↔ low ≤ b.toNat ∧ b.toNat ≤ high := by
  rw [Bool.and_eq_true, decide_eq_true_eq, decide_eq_true_eq, UInt8.le_iff_toNat_le,
    UInt8.le_iff_toNat_le, toNat_ofNat hlow, toNat_ofNat hhigh]

theorem isTail_ofNat {t : Nat} (h : t < 64) : isTail (UInt8.ofNat (t + 0x80)) = true := by
  refine (within_iff 0x80 0xBF (by decide) (by decide) _).2 ?_
  rw [toNat_ofNat (by omega)]
  omega

theorem extend_ofNat {n t : Nat} (h : t < 64) : extend n (UInt8.ofNat (t + 0x80)) = n * 64 + t := by
  unfold extend
  rw [toNat_ofNat (by omega)]
  omega

theorem lt_ascii_iff (a : UInt8) : a < 0x80 ↔ a.toNat < 128 :=
  UInt8.lt_iff_toNat_lt

theorem decode_one {v : Nat} (h : v ≤ 0x7f) (rest : Bytes) :
    decode (UInt8.ofNat v :: rest) = .char (Char.ofNat v) :: decode rest := by
  have hv : (UInt8.ofNat v).toNat = v := toNat_ofNat (by omega)
  have hascii : UInt8.ofNat v < 0x80 := by
    rw [lt_ascii_iff, hv]
    omega
  rw [decode.eq_def]
  dsimp only
  rw [if_pos hascii, hv]

theorem decode_two {v : Nat} (hlow : 0x7f < v) (hhigh : v ≤ 0x7ff) (rest : Bytes) :
    decode (UInt8.ofNat (v / 64 % 32 + 0xc0) :: UInt8.ofNat (v % 64 + 0x80) :: rest)
      = .char (Char.ofNat v) :: decode rest := by
  have hnat : (UInt8.ofNat (v / 64 % 32 + 0xc0)).toNat = v / 64 % 32 + 0xc0 :=
    toNat_ofNat (by omega)
  generalize UInt8.ofNat (v / 64 % 32 + 0xc0) = a at hnat
  have hascii : ¬ a < 0x80 := by
    rw [lt_ascii_iff]
    omega
  have hlead : (decide (0xC2 ≤ a) && decide (a ≤ 0xDF)) = true :=
    (within_iff 0xC2 0xDF (by decide) (by decide) a).2 (by omega)
  have hvalue : extend (a.toNat % 32) (UInt8.ofNat (v % 64 + 0x80)) = v := by
    rw [extend_ofNat (by omega)]
    omega
  rw [decode.eq_def]
  dsimp only
  rw [if_neg hascii, if_pos hlead, if_pos (isTail_ofNat (by omega)), hvalue]

/-- A number of three bytes does not lie where the second byte is narrowed. -/
theorem secondOfThree_ofNat {a : UInt8} {v : Nat} (hlow : 0x7ff < v) (hhigh : v ≤ 0xffff)
    (hvalid : v < 0xD800 ∨ 0xDFFF < v) (ha : a.toNat = v / 4096 % 16 + 0xe0) :
    secondOfThree a (UInt8.ofNat (v / 64 % 64 + 0x80)) = true := by
  have hb : (UInt8.ofNat (v / 64 % 64 + 0x80)).toNat = v / 64 % 64 + 0x80 := toNat_ofNat (by omega)
  unfold secondOfThree
  split
  next h =>
    -- a lower second byte would mean a number of two bytes
    have h : a.toNat = 0xE0 := congrArg UInt8.toNat (eq_of_beq h)
    exact (within_iff 0xA0 0xBF (by decide) (by decide) _).2 (by omega)
  next h =>
    split
    next h =>
      -- a higher second byte would mean a surrogate
      have h : a.toNat = 0xED := congrArg UInt8.toNat (eq_of_beq h)
      exact (within_iff 0x80 0x9F (by decide) (by decide) _).2 (by omega)
    next => exact isTail_ofNat (by omega)

theorem decode_three {v : Nat} (hlow : 0x7ff < v) (hhigh : v ≤ 0xffff)
    (hvalid : v < 0xD800 ∨ 0xDFFF < v) (rest : Bytes) :
    decode (UInt8.ofNat (v / 4096 % 16 + 0xe0) :: UInt8.ofNat (v / 64 % 64 + 0x80)
        :: UInt8.ofNat (v % 64 + 0x80) :: rest)
      = .char (Char.ofNat v) :: decode rest := by
  have hnat : (UInt8.ofNat (v / 4096 % 16 + 0xe0)).toNat = v / 4096 % 16 + 0xe0 :=
    toNat_ofNat (by omega)
  generalize UInt8.ofNat (v / 4096 % 16 + 0xe0) = a at hnat
  have hascii : ¬ a < 0x80 := by
    rw [lt_ascii_iff]
    omega
  -- the lead bytes of the four sizes do not overlap
  have htwo : ¬ (decide (0xC2 ≤ a) && decide (a ≤ 0xDF)) = true :=
    mt (within_iff 0xC2 0xDF (by decide) (by decide) a).1 (by omega)
  have hlead : (decide (0xE0 ≤ a) && decide (a ≤ 0xEF)) = true :=
    (within_iff 0xE0 0xEF (by decide) (by decide) a).2 (by omega)
  have hvalue : extend (extend (a.toNat % 16) (UInt8.ofNat (v / 64 % 64 + 0x80)))
      (UInt8.ofNat (v % 64 + 0x80)) = v := by
    rw [extend_ofNat (by omega), extend_ofNat (by omega)]
    omega
  rw [decode.eq_def]
  dsimp only
  rw [if_neg hascii, if_neg htwo, if_pos hlead,
    if_pos (secondOfThree_ofNat hlow hhigh hvalid hnat), if_pos (isTail_ofNat (by omega)), hvalue]

/-- A number of four bytes does not lie where the second byte is narrowed. -/
theorem secondOfFour_ofNat {a : UInt8} {v : Nat} (hlow : 0xffff < v) (hhigh : v < 0x110000)
    (ha : a.toNat = v / 262144 % 8 + 0xf0) :
    secondOfFour a (UInt8.ofNat (v / 4096 % 64 + 0x80)) = true := by
  have hb : (UInt8.ofNat (v / 4096 % 64 + 0x80)).toNat = v / 4096 % 64 + 0x80 :=
    toNat_ofNat (by omega)
  unfold secondOfFour
  split
  next h =>
    have h : a.toNat = 0xF0 := congrArg UInt8.toNat (eq_of_beq h)
    exact (within_iff 0x90 0xBF (by decide) (by decide) _).2 (by omega)
  next h =>
    split
    next h =>
      have h : a.toNat = 0xF4 := congrArg UInt8.toNat (eq_of_beq h)
      exact (within_iff 0x80 0x8F (by decide) (by decide) _).2 (by omega)
    next => exact isTail_ofNat (by omega)

theorem decode_four {v : Nat} (hlow : 0xffff < v) (hhigh : v < 0x110000) (rest : Bytes) :
    decode (UInt8.ofNat (v / 262144 % 8 + 0xf0) :: UInt8.ofNat (v / 4096 % 64 + 0x80)
        :: UInt8.ofNat (v / 64 % 64 + 0x80) :: UInt8.ofNat (v % 64 + 0x80) :: rest)
      = .char (Char.ofNat v) :: decode rest := by
  have hnat : (UInt8.ofNat (v / 262144 % 8 + 0xf0)).toNat = v / 262144 % 8 + 0xf0 :=
    toNat_ofNat (by omega)
  generalize UInt8.ofNat (v / 262144 % 8 + 0xf0) = a at hnat
  have hascii : ¬ a < 0x80 := by
    rw [lt_ascii_iff]
    omega
  have htwo : ¬ (decide (0xC2 ≤ a) && decide (a ≤ 0xDF)) = true :=
    mt (within_iff 0xC2 0xDF (by decide) (by decide) a).1 (by omega)
  have hthree : ¬ (decide (0xE0 ≤ a) && decide (a ≤ 0xEF)) = true :=
    mt (within_iff 0xE0 0xEF (by decide) (by decide) a).1 (by omega)
  have hlead : (decide (0xF0 ≤ a) && decide (a ≤ 0xF4)) = true :=
    (within_iff 0xF0 0xF4 (by decide) (by decide) a).2 (by omega)
  have hvalue : extend (extend (extend (a.toNat % 8) (UInt8.ofNat (v / 4096 % 64 + 0x80)))
      (UInt8.ofNat (v / 64 % 64 + 0x80))) (UInt8.ofNat (v % 64 + 0x80)) = v := by
    rw [extend_ofNat (by omega), extend_ofNat (by omega), extend_ofNat (by omega)]
    omega
  rw [decode.eq_def]
  dsimp only
  rw [if_neg hascii, if_neg htwo, if_neg hthree, if_pos hlead,
    if_pos (secondOfFour_ofNat hlow hhigh hnat), if_pos (isTail_ofNat (by omega)),
    if_pos (isTail_ofNat (by omega)), hvalue]

/-- **The bytes of a character are decoded to it.** -/
theorem decode_char (c : Char) (rest : Bytes) :
    decode (String.utf8EncodeChar c ++ rest) = .char c :: decode rest := by
  -- the number of a character is no surrogate and below U+110000
  have hvalid : c.toNat < 0xD800 ∨ (0xDFFF < c.toNat ∧ c.toNat < 0x110000) := c.valid
  have hbytes : String.utf8EncodeChar c =
      if c.toNat ≤ 0x7f then [UInt8.ofNat c.toNat]
      else if c.toNat ≤ 0x7ff then
        [UInt8.ofNat (c.toNat / 64 % 32 + 0xc0), UInt8.ofNat (c.toNat % 64 + 0x80)]
      else if c.toNat ≤ 0xffff then
        [UInt8.ofNat (c.toNat / 4096 % 16 + 0xe0), UInt8.ofNat (c.toNat / 64 % 64 + 0x80),
          UInt8.ofNat (c.toNat % 64 + 0x80)]
      else
        [UInt8.ofNat (c.toNat / 262144 % 8 + 0xf0), UInt8.ofNat (c.toNat / 4096 % 64 + 0x80),
          UInt8.ofNat (c.toNat / 64 % 64 + 0x80), UInt8.ofNat (c.toNat % 64 + 0x80)] := rfl
  conv_rhs => rw [← Char.ofNat_toNat c]
  rw [hbytes]
  by_cases hone : c.toNat ≤ 0x7f
  · rw [if_pos hone]
    exact decode_one hone rest
  by_cases htwo : c.toNat ≤ 0x7ff
  · rw [if_neg hone, if_pos htwo]
    exact decode_two (by omega) htwo rest
  by_cases hthree : c.toNat ≤ 0xffff
  · rw [if_neg hone, if_neg htwo, if_pos hthree]
    exact decode_three (by omega) hthree (by omega) rest
  · rw [if_neg hone, if_neg htwo, if_neg hthree]
    exact decode_four (by omega) (by omega) rest

/-- **The bytes of a text are decoded to it.** -/
theorem decode_encode (s : String) : decode (encode s) = s.toList.map .char := by
  rw [encode_eq]
  induction s.toList with
  | nil => rw [List.flatMap_nil, decode, List.map_nil]
  | cons c cs ih => rw [List.flatMap_cons, decode_char, ih, List.map_cons]

/-- **The bytes of a text are text.** -/
theorem text?_encode (s : String) : text? (encode s) = some s.toList := by
  unfold text?
  rw [decode_encode]
  induction s.toList with
  | nil => rfl
  | cons c cs ih =>
    rw [List.map_cons, List.mapM_cons, ih]
    rfl

end HeatMeter.Text.Utf8
