import Lsw.Lib.Base64
import Lsw.Lib.Utf16

/-!
# The Password of the Setup Account

An answer file holds a password as Base64 of UTF-16, with the word `Password` behind it
(`unattend.rs`).  `base64_encode` makes four characters of every three bytes, with shifts and masks;
`encodeChunk_eq` says which digits these are, and a reader of Base64 gets the bytes back.
-/

namespace Lsw.Core

open Lsw.Lib

/-! ## The encoder -/

/-- `input.chunks(3)`. -/
def chunksOfThree : List UInt8 → List (List UInt8)
  | [] => []
  | [first] => [[first]]
  | [first, second] => [[first, second]]
  | first :: second :: third :: rest => [first, second, third] :: chunksOfThree rest

/-- `ALPHABET`. -/
def base64Alphabet : Str :=
  "ABCDEFGHIJKLMNOPQRSTUVWXYZabcdefghijklmnopqrstuvwxyz0123456789+/".toList

/-- `ALPHABET[index as usize] as char`; an index is never 64 or more. -/
def base64Char (index : UInt8) : Char := base64Alphabet.getD index.toNat '='

/-- One round of the loop. -/
def encodeChunk (chunk : List UInt8) : Str :=
  let first := chunk.getD 0 0
  let second := chunk.getD 1 0
  let third := chunk.getD 2 0
  [base64Char (first >>> 2),
    base64Char (((first &&& 0x03) <<< 4) ||| (second >>> 4)),
    if chunk.length > 1 then base64Char (((second &&& 0x0f) <<< 2) ||| (third >>> 6)) else '=',
    if chunk.length > 2 then base64Char (third &&& 0x3f) else '=']

/-- `base64_encode`. -/
def base64Encode (input : List UInt8) : Str := (chunksOfThree input).flatMap encodeChunk

/-- `unattend_password_value`. -/
def unattendPasswordValue (password : Str) : Str :=
  base64Encode (Utf16.toLeBytes (Utf16.encode password ++ Utf16.encode "Password".toList))

/-! ## Digits -/

theorem toNat_high (byte : UInt8) : (byte >>> 2).toNat = byte.toNat / 4 := by
  rw [UInt8.toNat_shiftRight, Nat.shiftRight_eq_div_pow]
  rfl

/-- Bits of one byte in front of bits of the next. -/
theorem toNat_joined {front back : UInt8} {width bits : Nat} {shift : UInt8}
    (hshift : shift.toNat % 8 = width) (hfront : front.toNat * 2 ^ width < 256)
    (hback : back.toNat = bits) (hbits : bits < 2 ^ width) :
    ((front <<< shift) ||| back).toNat = front.toNat * 2 ^ width + bits := by
  have hleft : (front <<< shift).toNat = front.toNat <<< width := by
    rw [UInt8.toNat_shiftLeft, hshift]
    exact Nat.mod_eq_of_lt (by rwa [Nat.shiftLeft_eq])
  rw [UInt8.toNat_or, hleft, hback, ← Nat.shiftLeft_add_eq_or_of_lt hbits, Nat.shiftLeft_eq]

theorem toNat_middle (first second : UInt8) :
    (((first &&& 0x03) <<< 4) ||| (second >>> 4)).toNat =
      first.toNat % 4 * 16 + second.toNat / 16 := by
  have hsecond := second.toNat_lt
  have hmask : (first &&& 0x03).toNat = first.toNat % 4 := by
    rw [UInt8.toNat_and]
    exact Nat.and_two_pow_sub_one_eq_mod first.toNat 2
  have hhigh : (second >>> 4).toNat = second.toNat / 16 := by
    rw [UInt8.toNat_shiftRight, Nat.shiftRight_eq_div_pow]
    rfl
  have hshift : (4 : UInt8).toNat % 8 = 4 := rfl
  rw [toNat_joined hshift (by rw [hmask]; omega) hhigh (by omega), hmask]
  rfl

theorem toNat_low (second third : UInt8) :
    (((second &&& 0x0f) <<< 2) ||| (third >>> 6)).toNat =
      second.toNat % 16 * 4 + third.toNat / 64 := by
  have hthird := third.toNat_lt
  have hmask : (second &&& 0x0f).toNat = second.toNat % 16 := by
    rw [UInt8.toNat_and]
    exact Nat.and_two_pow_sub_one_eq_mod second.toNat 4
  have hhigh : (third >>> 6).toNat = third.toNat / 64 := by
    rw [UInt8.toNat_shiftRight, Nat.shiftRight_eq_div_pow]
    rfl
  have hshift : (2 : UInt8).toNat % 8 = 2 := rfl
  rw [toNat_joined hshift (by rw [hmask]; omega) hhigh (by omega), hmask]
  rfl

theorem toNat_last (byte : UInt8) : (byte &&& 0x3f).toNat = byte.toNat % 64 := by
  rw [UInt8.toNat_and]
  exact Nat.and_two_pow_sub_one_eq_mod byte.toNat 6

theorem base64Char_eq {index : UInt8} {value : Nat} (h : index.toNat = value) :
    base64Char index = Base64.digit value := by
  rw [base64Char, h]
  rfl

theorem encodeChunk_three (x y z : UInt8) :
    encodeChunk [x, y, z] = [Base64.digit (x.toNat / 4),
      Base64.digit (x.toNat % 4 * 16 + y.toNat / 16),
      Base64.digit (y.toNat % 16 * 4 + z.toNat / 64), Base64.digit (z.toNat % 64)] := by
  rw [← base64Char_eq (toNat_high x), ← base64Char_eq (toNat_middle x y),
    ← base64Char_eq (toNat_low y z), ← base64Char_eq (toNat_last z)]
  rfl

theorem encodeChunk_two (x y : UInt8) :
    encodeChunk [x, y] = [Base64.digit (x.toNat / 4),
      Base64.digit (x.toNat % 4 * 16 + y.toNat / 16), Base64.digit (y.toNat % 16 * 4), '='] := by
  have hlow : (((y &&& 0x0f) <<< 2) ||| ((0 : UInt8) >>> 6)).toNat = y.toNat % 16 * 4 :=
    toNat_low y 0
  rw [← base64Char_eq (toNat_high x), ← base64Char_eq (toNat_middle x y), ← base64Char_eq hlow]
  rfl

theorem encodeChunk_one (x : UInt8) :
    encodeChunk [x] = [Base64.digit (x.toNat / 4), Base64.digit (x.toNat % 4 * 16), '=', '='] := by
  have hmiddle : (((x &&& 0x03) <<< 4) ||| ((0 : UInt8) >>> 4)).toNat = x.toNat % 4 * 16 :=
    toNat_middle x 0
  rw [← base64Char_eq (toNat_high x), ← base64Char_eq hmiddle]
  rfl

/-! ## The text -/

theorem base64Encode_cons (x y z : UInt8) (rest : List UInt8) :
    base64Encode (x :: y :: z :: rest) = encodeChunk [x, y, z] ++ base64Encode rest := rfl

/-- The bytes are read back. -/
theorem decode_base64Encode (input : List UInt8) :
    Base64.decode (base64Encode input) = some input := by
  induction input using chunksOfThree.induct with
  | case1 => rfl
  | case2 x =>
    have hencode : base64Encode [x] = encodeChunk [x] := List.append_nil _
    have hempty : ([] : Str).isEmpty = true := rfl
    rw [hencode, encodeChunk_one]
    exact Base64.decode_cons (hempty ▸ Base64.decodeGroup_one x) rfl
  | case3 x y =>
    have hencode : base64Encode [x, y] = encodeChunk [x, y] := List.append_nil _
    have hempty : ([] : Str).isEmpty = true := rfl
    rw [hencode, encodeChunk_two]
    exact Base64.decode_cons (hempty ▸ Base64.decodeGroup_two x y) rfl
  | case4 x y z rest ih =>
    rw [base64Encode_cons, encodeChunk_three]
    exact Base64.decode_cons (Base64.decodeGroup_three _ x y z) ih

/-- Characters of the alphabet, and as much padding as the last group needs. -/
def IsPadded (length : Nat) (text : Str) : Prop :=
  ∃ body, text = body ++ List.replicate ((3 - length % 3) % 3) '=' ∧
    (∀ c ∈ body, c ∈ Base64.alphabet) ∧ text.length = 4 * ((length + 2) / 3)

theorem digits_mem {values : List Nat} (h : ∀ value ∈ values, value < 64) :
    ∀ c ∈ values.map Base64.digit, c ∈ Base64.alphabet := by
  intro c hc
  obtain ⟨value, hvalue, rfl⟩ := List.mem_map.mp hc
  exact Base64.digit_mem (h value hvalue)

/-- What is encoded has the length and the padding that its input asks for. -/
theorem isPadded_base64Encode (input : List UInt8) :
    IsPadded input.length (base64Encode input) := by
  -- Over groups of three bytes; the last group may be shorter and is padded.
  induction input using chunksOfThree.induct with
  | case1 => exact ⟨[], rfl, by simp, rfl⟩
  -- One byte: two digits and two signs of padding.
  | case2 x =>
    have hx := x.toNat_lt
    have hencode : base64Encode [x] = encodeChunk [x] := List.append_nil _
    refine ⟨[x.toNat / 4, x.toNat % 4 * 16].map Base64.digit, ?_, digits_mem ?_, ?_⟩
    · rw [hencode, encodeChunk_one]
      rfl
    · simp
      omega
    · rw [hencode, encodeChunk_one]
      simp
  -- Two bytes: three digits and one sign of padding.
  | case3 x y =>
    have hx := x.toNat_lt
    have hy := y.toNat_lt
    have hencode : base64Encode [x, y] = encodeChunk [x, y] := List.append_nil _
    refine ⟨[x.toNat / 4, x.toNat % 4 * 16 + y.toNat / 16, y.toNat % 16 * 4].map Base64.digit,
      ?_, digits_mem ?_, ?_⟩
    · rw [hencode, encodeChunk_two]
      rfl
    · simp
      omega
    · rw [hencode, encodeChunk_two]
      simp
  -- A full group has four digits, and the padding is that of the rest.
  | case4 x y z rest ih =>
    have hx := x.toNat_lt
    have hy := y.toNat_lt
    have hz := z.toNat_lt
    obtain ⟨body, htext, hbody, hlength⟩ := ih
    have hsame : (x :: y :: z :: rest).length % 3 = rest.length % 3 := by
      simp only [List.length_cons]
      omega
    refine ⟨encodeChunk [x, y, z] ++ body, ?_, ?_, ?_⟩
    · rw [base64Encode_cons, hsame, htext, List.append_assoc]
    · rw [encodeChunk_three]
      intro c hc
      rcases List.mem_append.mp hc with hgroup | hrest
      · refine @digits_mem [x.toNat / 4, x.toNat % 4 * 16 + y.toNat / 16,
          y.toNat % 16 * 4 + z.toNat / 64, z.toNat % 64] ?_ c hgroup
        simp
        omega
      · exact hbody c hrest
    · rw [base64Encode_cons, List.length_append, hlength, encodeChunk_three]
      simp only [List.length_cons, List.length_nil]
      omega

/-- The password of an answer file, as Windows reads it. -/
def readPassword (value : Str) : Option Str := do
  let bytes ← Base64.decode value
  let units ← Utf16.ofLeBytes bytes
  Utf16.decode units

/-- The password is read with the word behind it. -/
theorem readPassword_unattendPasswordValue (password : Str) :
    readPassword (unattendPasswordValue password) = some (password ++ "Password".toList) := by
  have hunits : Utf16.encode password ++ Utf16.encode "Password".toList =
      Utf16.encode (password ++ "Password".toList) := List.flatMap_append.symm
  rw [readPassword, unattendPasswordValue, decode_base64Encode]
  simp only [Option.bind_eq_bind, Option.bind_some]
  rw [Utf16.ofLeBytes_toLeBytes, Option.bind_some, hunits, Utf16.decode_encode]

/-- The encoding is standard Base64 for all bytes, and no two passwords have one value. -/
theorem password_encoding_reads_back :
    (∀ input, Base64.decode (base64Encode input) = some input ∧
      IsPadded input.length (base64Encode input)) ∧
    (∀ password, readPassword (unattendPasswordValue password) =
      some (password ++ "Password".toList)) ∧
    Function.Injective unattendPasswordValue := by
  refine ⟨fun input => ⟨decode_base64Encode input, isPadded_base64Encode input⟩,
    readPassword_unattendPasswordValue, fun password other heq => ?_⟩
  have hread := readPassword_unattendPasswordValue password
  rw [heq, readPassword_unattendPasswordValue other] at hread
  exact List.append_cancel_right (Option.some.inj hread).symm

/-- The value that Windows makes of a short password. -/
example : unattendPasswordValue "pw".toList = "cAB3AFAAYQBzAHMAdwBvAHIAZAA=".toList := by decide

end Lsw.Core
