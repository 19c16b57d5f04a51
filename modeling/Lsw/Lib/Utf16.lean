import Lsw.Lib.Text

/-!
# UTF-16

A text as units of 16 bits: a character outside the basic plane is a pair of surrogates.  The units
are written with the low byte first, as Windows has them.

Nothing here names a particular program.
-/

namespace Lsw.Lib.Utf16

/-- The units of a character. -/
def encodeChar (c : Char) : List UInt16 :=
  if c.toNat < 0x10000 then [UInt16.ofNat c.toNat]
  else [UInt16.ofNat (0xd800 + (c.toNat - 0x10000) / 0x400),
    UInt16.ofNat (0xdc00 + (c.toNat - 0x10000) % 0x400)]

/-- The units of a text. -/
def encode (s : Str) : List UInt16 := s.flatMap encodeChar

/-- The text of some units, unless a surrogate is on its own. -/
def decode : List UInt16 → Option Str
  | [] => some []
  | unit :: units =>
    if unit.toNat < 0xd800 ∨ 0xe000 ≤ unit.toNat then
      (decode units).map (Char.ofNat unit.toNat :: ·)
    else match units with
      | [] => none
      | low :: units =>
        if unit.toNat < 0xdc00 ∧ 0xdc00 ≤ low.toNat ∧ low.toNat < 0xe000 then
          (decode units).map (Char.ofNat
            (0x10000 + (unit.toNat - 0xd800) * 0x400 + (low.toNat - 0xdc00)) :: ·)
        else none

/-- `u16::to_le_bytes`, of each unit. -/
def toLeBytes (units : List UInt16) : List UInt8 :=
  units.flatMap fun unit => [UInt8.ofNat (unit.toNat % 256), UInt8.ofNat (unit.toNat / 256)]

/-- The units of some bytes. -/
def ofLeBytes : List UInt8 → Option (List UInt16)
  | [] => some []
  | [_] => none
  | low :: high :: bytes =>
    (ofLeBytes bytes).map (UInt16.ofNat (low.toNat + high.toNat * 256) :: ·)

/-- Units are read back from their bytes. -/
theorem ofLeBytes_toLeBytes (units : List UInt16) : ofLeBytes (toLeBytes units) = some units := by
  induction units with
  | nil => rfl
  | cons unit units ih =>
    have hunit := unit.toNat_lt
    have hlow : (UInt8.ofNat (unit.toNat % 256)).toNat = unit.toNat % 256 :=
      UInt8.toNat_ofNat_of_lt' (by change _ < 256; omega)
    have hhigh : (UInt8.ofNat (unit.toNat / 256)).toNat = unit.toNat / 256 :=
      UInt8.toNat_ofNat_of_lt' (by change _ < 256; omega)
    have hvalue : unit.toNat % 256 + unit.toNat / 256 * 256 = unit.toNat := by omega
    have hcons : toLeBytes (unit :: units) =
        UInt8.ofNat (unit.toNat % 256) :: UInt8.ofNat (unit.toNat / 256) :: toLeBytes units := rfl
    rw [hcons, ofLeBytes, ih, hlow, hhigh, hvalue, UInt16.ofNat_toNat]
    rfl

/-- A unit that is no surrogate. -/
theorem decode_cons {unit : UInt16} (h : unit.toNat < 0xd800 ∨ 0xe000 ≤ unit.toNat)
    (units : List UInt16) :
    decode (unit :: units) = (decode units).map (Char.ofNat unit.toNat :: ·) := by
  cases units with
  | nil => simp [decode, h]
  | cons next units => rw [decode, if_pos h]

/-- A character is read from its units, whatever follows. -/
theorem decode_encodeChar (c : Char) (units : List UInt16) :
    decode (encodeChar c ++ units) = (decode units).map (c :: ·) := by
  have hvalid : c.toNat < 0xd800 ∨ 0xdfff < c.toNat ∧ c.toNat < 0x110000 := c.valid
  -- One unit, or a pair of surrogates.
  by_cases hbasic : c.toNat < 0x10000
  · have hunit : (UInt16.ofNat c.toNat).toNat = c.toNat := UInt16.toNat_ofNat_of_lt' hbasic
    have hplain : c.toNat < 0xd800 ∨ 0xe000 ≤ c.toNat := by omega
    rw [encodeChar, if_pos hbasic, List.singleton_append,
      decode_cons (by rwa [hunit]), hunit, Char.ofNat_toNat]
  · have hhigh : (UInt16.ofNat (0xd800 + (c.toNat - 0x10000) / 0x400)).toNat =
        0xd800 + (c.toNat - 0x10000) / 0x400 :=
      UInt16.toNat_ofNat_of_lt' (by change _ < 65536; omega)
    have hlow : (UInt16.ofNat (0xdc00 + (c.toNat - 0x10000) % 0x400)).toNat =
        0xdc00 + (c.toNat - 0x10000) % 0x400 :=
      UInt16.toNat_ofNat_of_lt' (by change _ < 65536; omega)
    have hpair : ¬ (0xd800 + (c.toNat - 0x10000) / 0x400 < 0xd800 ∨
        0xe000 ≤ 0xd800 + (c.toNat - 0x10000) / 0x400) := by omega
    -- The first one is high and the second one low.
    have hranges : 0xd800 + (c.toNat - 0x10000) / 0x400 < 0xdc00 ∧
        0xdc00 ≤ 0xdc00 + (c.toNat - 0x10000) % 0x400 ∧
        0xdc00 + (c.toNat - 0x10000) % 0x400 < 0xe000 := by omega
    have hvalue : 0x10000 + (0xd800 + (c.toNat - 0x10000) / 0x400 - 0xd800) * 0x400 +
        (0xdc00 + (c.toNat - 0x10000) % 0x400 - 0xdc00) = c.toNat := by omega
    rw [encodeChar, if_neg hbasic, List.cons_append, List.singleton_append, decode]
    simp only [hhigh, hlow, if_neg hpair, if_pos hranges, hvalue, Char.ofNat_toNat]

/-- A text is read from its units. -/
theorem decode_encode (s : Str) : decode (encode s) = some s := by
  induction s with
  | nil => rfl
  | cons c s ih =>
    have hcons : encode (c :: s) = encodeChar c ++ encode s := rfl
    rw [hcons, decode_encodeChar, ih]
    rfl

end Lsw.Lib.Utf16
