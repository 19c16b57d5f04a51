import Lsw.Lib.Text

/-!
# Base64

How Base64 is read: four characters give three bytes, and the last four may be padded, when they
give two bytes or one; the bits that padding leaves over are zero.  The lemmas at the end say what
the characters of one, two and three bytes are read as, by the values of the digits.

Nothing here names a particular program.
-/

namespace Lsw.Lib.Base64

/-- The digits, by their values. -/
def alphabet : Str :=
  "ABCDEFGHIJKLMNOPQRSTUVWXYZabcdefghijklmnopqrstuvwxyz0123456789+/".toList

/-- The value of a digit. -/
def sextet? (c : Char) : Option Nat := alphabet.findIdx? (· == c)

/-- Three bytes of four digits. -/
def bytesOf (a b c d : Nat) : List UInt8 :=
  [UInt8.ofNat (a * 4 + b / 16), UInt8.ofNat (b % 16 * 16 + c / 4), UInt8.ofNat (c % 4 * 64 + d)]

/-- The last four characters, and those in front of them. -/
def decodeGroup (last : Bool) (a b c d : Char) : Option (List UInt8) := do
  let first ← sextet? a
  let second ← sextet? b
  if last ∧ c = '=' ∧ d = '=' then
    if second % 16 = 0 then return (bytesOf first second 0 0).take 1 else none
  let third ← sextet? c
  if last ∧ d = '=' then
    if third % 4 = 0 then return (bytesOf first second third 0).take 2 else none
  let fourth ← sextet? d
  return bytesOf first second third fourth

/-- The bytes of a text. -/
def decode : Str → Option (List UInt8)
  | [] => some []
  | a :: b :: c :: d :: rest => do
    let front ← decodeGroup rest.isEmpty a b c d
    let others ← decode rest
    return front ++ others
  | _ => none

/-! ## Digits -/

/-- The digit of a value. -/
def digit (value : Nat) : Char := alphabet.getD value '='

theorem sextet?_digit {value : Nat} (h : value < 64) : sextet? (digit value) = some value := by
  have hall : ∀ value < 64, sextet? (digit value) = some value := by decide
  exact hall value h

theorem digit_mem {value : Nat} (h : value < 64) : digit value ∈ alphabet := by
  rw [digit, List.getD_eq_getElem?_getD, List.getElem?_eq_getElem h]
  exact List.getElem_mem h

theorem digit_ne_padding {value : Nat} (h : value < 64) : digit value ≠ '=' := by
  intro heq
  exact absurd (heq ▸ digit_mem h) (by decide)

/-! ## Groups -/

/-- A full group gives its three bytes. -/
theorem decodeGroup_three (last : Bool) (x y z : UInt8) :
    decodeGroup last (digit (x.toNat / 4)) (digit (x.toNat % 4 * 16 + y.toNat / 16))
      (digit (y.toNat % 16 * 4 + z.toNat / 64)) (digit (z.toNat % 64)) = some [x, y, z] := by
  have hx := x.toNat_lt
  have hy := y.toNat_lt
  have hz := z.toNat_lt
  have hfourth : digit (z.toNat % 64) ≠ '=' := digit_ne_padding (by omega)
  have hbytes : bytesOf (x.toNat / 4) (x.toNat % 4 * 16 + y.toNat / 16)
      (y.toNat % 16 * 4 + z.toNat / 64) (z.toNat % 64) = [x, y, z] := by
    have h₁ : x.toNat / 4 * 4 + (x.toNat % 4 * 16 + y.toNat / 16) / 16 = x.toNat := by omega
    have h₂ : (x.toNat % 4 * 16 + y.toNat / 16) % 16 * 16 +
      (y.toNat % 16 * 4 + z.toNat / 64) / 4 = y.toNat := by omega
    have h₃ : (y.toNat % 16 * 4 + z.toNat / 64) % 4 * 64 + z.toNat % 64 = z.toNat := by omega
    rw [bytesOf, h₁, h₂, h₃, UInt8.ofNat_toNat, UInt8.ofNat_toNat, UInt8.ofNat_toNat]
  rw [decodeGroup, sextet?_digit (by omega), sextet?_digit (by omega), sextet?_digit (by omega),
    sextet?_digit (by omega)]
  simp [hfourth, hbytes]

/-- A group with one sign of padding gives two. -/
theorem decodeGroup_two (x y : UInt8) :
    decodeGroup true (digit (x.toNat / 4)) (digit (x.toNat % 4 * 16 + y.toNat / 16))
      (digit (y.toNat % 16 * 4)) '=' = some [x, y] := by
  have hx := x.toNat_lt
  have hy := y.toNat_lt
  have hthird : digit (y.toNat % 16 * 4) ≠ '=' := digit_ne_padding (by omega)
  have hzero : y.toNat % 16 * 4 % 4 = 0 := by omega
  have hbytes : (bytesOf (x.toNat / 4) (x.toNat % 4 * 16 + y.toNat / 16)
      (y.toNat % 16 * 4) 0).take 2 = [x, y] := by
    have h₁ : x.toNat / 4 * 4 + (x.toNat % 4 * 16 + y.toNat / 16) / 16 = x.toNat := by omega
    have h₂ : (x.toNat % 4 * 16 + y.toNat / 16) % 16 * 16 + y.toNat % 16 * 4 / 4 = y.toNat := by
      omega
    rw [bytesOf, h₁, h₂, UInt8.ofNat_toNat, UInt8.ofNat_toNat]
    rfl
  rw [decodeGroup, sextet?_digit (by omega), sextet?_digit (by omega), sextet?_digit (by omega)]
  simp [hthird, hzero, hbytes]

theorem decodeGroup_one (x : UInt8) :
    decodeGroup true (digit (x.toNat / 4)) (digit (x.toNat % 4 * 16)) '=' '=' = some [x] := by
  have hx := x.toNat_lt
  have hzero : x.toNat % 4 * 16 % 16 = 0 := by omega
  have hbytes : (bytesOf (x.toNat / 4) (x.toNat % 4 * 16) 0 0).take 1 = [x] := by
    have h₁ : x.toNat / 4 * 4 + x.toNat % 4 * 16 / 16 = x.toNat := by omega
    rw [bytesOf, h₁, UInt8.ofNat_toNat]
    rfl
  rw [decodeGroup, sextet?_digit (by omega), sextet?_digit (by omega)]
  simp [hzero, hbytes]

/-- Four characters in front of a text. -/
theorem decode_cons {a b c d : Char} {rest : Str} {front others : List UInt8}
    (hfront : decodeGroup rest.isEmpty a b c d = some front) (hrest : decode rest = some others) :
    decode (a :: b :: c :: d :: rest) = some (front ++ others) := by
  rw [decode, hfront, hrest]
  rfl

end Lsw.Lib.Base64
