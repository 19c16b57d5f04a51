import Lsw.Lib.Wire

/-!
# Payload Fields of the Host-Guest Protocol

The field readers and writers every message of `lsw-protocol` is made of
(`codec.rs`), with the limits of `constants.rs`.  Integers are big-endian, a string is
its UTF-8 bytes behind a four-byte length, and both sides refuse a string above
`MAX_STRING_BYTES`.
-/

namespace Lsw.Protocol

open Lsw.Lib

/-! ## Limits and errors -/

/-- `MAX_ARGUMENTS`. -/
def maxArguments : Nat := 1024

/-- `MAX_STRING_BYTES`. -/
def maxStringBytes : Nat := 1024 * 1024

/-- `MAX_GUI_WINDOW_DIMENSION`. -/
def maxGuiWindowDimension : Nat := 8192

/-- `MAX_GUI_DAMAGE_DIMENSION`. -/
def maxGuiDamageDimension : Nat := 512

/-- `MAX_GUI_FRAME_BYTES`. -/
def maxGuiFrameBytes : Nat := 128 * 1024 * 1024

/-- The I/O failures a reader of a byte stream meets. -/
inductive IoError where
  /-- `ErrorKind::UnexpectedEof` of `read_exact`. -/
  | unexpectedEof
  deriving DecidableEq, Repr

/-- The error of `lsw-protocol`; codecs only ever report `Protocol`, `Io` comes from the
    stream below them. -/
inductive ProtocolError where
  | io (error : IoError)
  | protocol (reason : String)
  deriving DecidableEq, Repr

/-! ## Writers -/

/-- `u16::to_be_bytes`. -/
def u16Bytes (value : UInt16) : Bytes := beBytes 2 value.toNat

/-- `i16::to_be_bytes`. -/
def i16Bytes (value : Int16) : Bytes := u16Bytes value.toUInt16

/-- `u32::to_be_bytes`. -/
def u32Bytes (value : UInt32) : Bytes := beBytes 4 value.toNat

/-- `u64::to_be_bytes`. -/
def u64Bytes (value : UInt64) : Bytes := beBytes 8 value.toNat

/-- The UTF-8 bytes of a string. -/
def utf8Bytes (value : String) : Bytes := value.toUTF8.data.toList

/-- `push_string`. -/
def pushString (payload : Bytes) (value : String) : Except ProtocolError Bytes := do
  let bytes := utf8Bytes value
  rejectIf (bytes.length > maxStringBytes)
    (.protocol s!"string exceeds the {maxStringBytes} byte limit")
  rejectIf (bytes.length ≥ u32Size) (.protocol "string length does not fit in u32")
  return payload ++ beBytes 4 bytes.length ++ bytes

/-- `push_strings`. -/
def pushStrings (payload : Bytes) (values : List String) : Except ProtocolError Bytes := do
  rejectIf (values.length ≥ 2 ^ 16) (.protocol "too many string values")
  rejectIf (values.length > maxArguments) (.protocol s!"more than {maxArguments} string values")
  forEach values pushString (payload ++ beBytes 2 values.length)

/-! ## Readers -/

namespace Decoder

/-- `Decoder::new(payload)` and the reads made through it. -/
def of {α : Type} (payload : Bytes) (r : Reader ProtocolError α) : Except ProtocolError α := do
  let (value, _) ← r.run payload
  return value

/-- `Decoder::u8`. -/
def u8 : Reader ProtocolError UInt8 := fun remaining =>
  match remaining with
  | [] => .error (.protocol "truncated u8 field")
  | value :: remaining => .ok (value, remaining)

/-- `Decoder::take`. -/
def take (length : Nat) : Reader ProtocolError Bytes :=
  takeBytes length (.protocol "truncated payload")

/-- `Decoder::u16`. -/
def u16 : Reader ProtocolError UInt16 := do
  let bytes ← take 2
  return UInt16.ofNat (ofBeBytes bytes)

/-- `Decoder::i16`. -/
def i16 : Reader ProtocolError Int16 := do
  let bytes ← take 2
  return (UInt16.ofNat (ofBeBytes bytes)).toInt16

/-- `Decoder::u32`. -/
def u32 : Reader ProtocolError UInt32 := do
  let bytes ← take 4
  return UInt32.ofNat (ofBeBytes bytes)

/-- `Decoder::u64`. -/
def u64 : Reader ProtocolError UInt64 := do
  let bytes ← take 8
  return UInt64.ofNat (ofBeBytes bytes)

/-- `String::from_utf8`. -/
def fromUtf8 (bytes : Bytes) : Except ProtocolError String :=
  okOr (String.fromUTF8? bytes.toByteArray) (.protocol "string is not valid UTF-8")

/-- `Decoder::string`. -/
def string : Reader ProtocolError String := do
  let length ← u32
  liftM (rejectIf (length.toNat > maxStringBytes)
    (ProtocolError.protocol s!"string exceeds the {maxStringBytes} byte limit"))
  let bytes ← take length.toNat
  liftM (fromUtf8 bytes)

/-- `Decoder::strings`. -/
def strings : Reader ProtocolError (List String) := do
  let count ← u16
  liftM (rejectIf (count.toNat > maxArguments)
    (ProtocolError.protocol s!"more than {maxArguments} string values"))
  readMany count.toNat string

/-- The reads of `decoder.remaining.to_vec()` followed by `decoder.remaining = &[]`. -/
def rest : Reader ProtocolError Bytes := fun remaining => .ok (remaining, [])

/-- `Decoder::finish`. -/
def finish : Reader ProtocolError Unit := fun remaining =>
  if remaining.isEmpty then .ok ((), remaining)
  else .error (.protocol "payload has trailing bytes")

end Decoder

/-! ## Field round trips -/

theorem reads_u32 (value : UInt32) : Reads Decoder.u32 (u32Bytes value) value := by
  have hlt : value.toNat < 256 ^ 4 := by
    have := value.toNat_lt
    omega
  unfold Decoder.u32
  refine Reads.bind (List.append_nil _).symm (reads_takeBytes _ (length_beBytes 4 _)) ?_
  exact Reads.pure (by rw [u32Bytes, ofBeBytes_beBytes_of_lt hlt, UInt32.ofNat_toNat])

theorem reads_u64 (value : UInt64) : Reads Decoder.u64 (u64Bytes value) value := by
  have hlt : value.toNat < 256 ^ 8 := by
    have := value.toNat_lt
    omega
  unfold Decoder.u64
  refine Reads.bind (List.append_nil _).symm (reads_takeBytes _ (length_beBytes 8 _)) ?_
  exact Reads.pure (by rw [u64Bytes, ofBeBytes_beBytes_of_lt hlt, UInt64.ofNat_toNat])

theorem fromUtf8_utf8Bytes (value : String) :
    Decoder.fromUtf8 (utf8Bytes value) = .ok value := by
  have hbytes : (utf8Bytes value).toByteArray = value.toUTF8 := by
    apply ByteArray.ext
    simp [utf8Bytes]
  have hvalid : value.toUTF8.IsValidUTF8 := value.isValidUTF8
  rw [Decoder.fromUtf8, hbytes, String.fromUTF8?, dif_pos hvalid]
  rfl

/-- What `push_string` accepts and appends. -/
theorem pushString_eq_ok {payload out : Bytes} {value : String} :
    pushString payload value = .ok out ↔
      (utf8Bytes value).length ≤ maxStringBytes ∧
        out = payload ++ (beBytes 4 (utf8Bytes value).length ++ utf8Bytes value) := by
  have hfits : (utf8Bytes value).length ≤ maxStringBytes →
      (utf8Bytes value).length < u32Size := by
    intro h
    have : maxStringBytes < u32Size := by decide
    omega
  simp only [pushString, bind_eq_ok, rejectIf_eq_ok, pure_eq_ok_iff, exists_const, not_lt,
    ge_iff_le, not_le, List.append_assoc]
  constructor
  · rintro ⟨hmax, -, hout⟩
    exact ⟨hmax, hout.symm⟩
  · rintro ⟨hmax, hout⟩
    exact ⟨hmax, hfits hmax, hout.symm⟩

/-- A string within the limit is read back. -/
theorem reads_string {value : String} (h : (utf8Bytes value).length ≤ maxStringBytes) :
    Reads Decoder.string (beBytes 4 (utf8Bytes value).length ++ utf8Bytes value) value := by
  have hsize : (utf8Bytes value).length < 2 ^ 32 := by
    have : maxStringBytes < 2 ^ 32 := by decide
    omega
  -- The length on the wire is the length the reader asks for.
  have hnat : (UInt32.ofNat (utf8Bytes value).length).toNat = (utf8Bytes value).length :=
    UInt32.toNat_ofNat_of_lt hsize
  have hlen := reads_u32 (UInt32.ofNat (utf8Bytes value).length)
  rw [u32Bytes, hnat] at hlen
  unfold Decoder.string
  refine Reads.bind rfl hlen ?_
  refine Reads.bind_nil (reads_lift_ok (rejectIf_of_not _ (by omega))) ?_
  refine Reads.bind (List.append_nil _).symm (reads_takeBytes _ hnat.symm) ?_
  exact reads_lift_ok (fromUtf8_utf8Bytes value)

/-! ## Fields have one spelling -/

theorem u8_run (bytes : Bytes) (value : UInt8) (rest : Bytes) :
    Decoder.u8.run bytes = .ok (value, rest) ↔ bytes = value :: rest := by
  cases bytes with
  | nil => simp [Decoder.u8, StateT.run]
  | cons b bytes =>
    show Except.ok (b, bytes) = Except.ok (value, rest) ↔ _
    simp

/-- A big-endian word, however it is turned into a value and back, is spelled by its bytes. -/
theorem spells_word {α : Type} (k : Nat) (ofWord : Nat → α) (toWord : α → Nat)
    (hof : ∀ n, n < 256 ^ k → toWord (ofWord n) = n) (hto : ∀ a, ofWord (toWord a) = a)
    (hlt : ∀ a, toWord a < 256 ^ k) :
    Spells (Decoder.take k >>= fun bytes => pure (ofWord (ofBeBytes bytes)))
      (fun a => beBytes k (toWord a)) fun _ => True := by
  intro bytes a rest
  simp only [Decoder.take, run_bind_eq_ok, run_takeBytes_eq_ok, run_pure_eq_ok, true_and]
  constructor
  · rintro ⟨front, _, ⟨hlen, rfl⟩, rfl, rfl⟩
    rw [hof _ (ofBeBytes_lt hlen), beBytes_ofBeBytes hlen]
  · rintro rfl
    refine ⟨_, rest, ⟨length_beBytes k _, rfl⟩, ?_, rfl⟩
    rw [ofBeBytes_beBytes_of_lt (hlt a), hto]

theorem u16_run (bytes : Bytes) (value : UInt16) (rest : Bytes) :
    Decoder.u16.run bytes = .ok (value, rest) ↔ bytes = u16Bytes value ++ rest := by
  have h := spells_word 2 UInt16.ofNat UInt16.toNat
    (fun n hn => UInt16.toNat_ofNat_of_lt' (by simpa using hn)) (fun a => UInt16.ofNat_toNat)
    (fun a => by simpa using a.toNat_lt)
  rw [Decoder.u16, h bytes value rest, true_and]
  rfl

theorem i16_run (bytes : Bytes) (value : Int16) (rest : Bytes) :
    Decoder.i16.run bytes = .ok (value, rest) ↔ bytes = i16Bytes value ++ rest := by
  have h := spells_word 2 (fun n => (UInt16.ofNat n).toInt16) (fun a => a.toUInt16.toNat)
    (fun n hn => by simpa using hn) (fun a => by simp)
    (fun a => by simpa using a.toUInt16.toNat_lt)
  rw [Decoder.i16, h bytes value rest, true_and]
  rfl

theorem u32_run (bytes : Bytes) (value : UInt32) (rest : Bytes) :
    Decoder.u32.run bytes = .ok (value, rest) ↔ bytes = u32Bytes value ++ rest := by
  have h := spells_word 4 UInt32.ofNat UInt32.toNat
    (fun n hn => UInt32.toNat_ofNat_of_lt' (by simpa using hn)) (fun a => UInt32.ofNat_toNat)
    (fun a => by simpa using a.toNat_lt)
  rw [Decoder.u32, h bytes value rest, true_and]
  rfl

theorem u64_run (bytes : Bytes) (value : UInt64) (rest : Bytes) :
    Decoder.u64.run bytes = .ok (value, rest) ↔ bytes = u64Bytes value ++ rest := by
  have h := spells_word 8 UInt64.ofNat UInt64.toNat
    (fun n hn => UInt64.toNat_ofNat_of_lt' (by simpa using hn)) (fun a => UInt64.ofNat_toNat)
    (fun a => by simpa using a.toNat_lt)
  rw [Decoder.u64, h bytes value rest, true_and]
  rfl

/-- The bytes `push_string` appends. -/
def stringBytes (value : String) : Bytes :=
  beBytes 4 (utf8Bytes value).length ++ utf8Bytes value

/-- The strings both sides of the protocol accept. -/
def FitsString (value : String) : Prop := (utf8Bytes value).length ≤ maxStringBytes

instance (value : String) : Decidable (FitsString value) :=
  inferInstanceAs (Decidable (_ ≤ maxStringBytes))

theorem fromUtf8_eq_ok {bytes : Bytes} {value : String} :
    Decoder.fromUtf8 bytes = .ok value ↔ bytes = utf8Bytes value := by
  constructor
  · intro h
    rw [Decoder.fromUtf8, okOr_eq_ok, String.fromUTF8?] at h
    split at h
    · cases h
      simp [utf8Bytes, String.fromUTF8]
    · cases h
  · rintro rfl
    exact fromUtf8_utf8Bytes value

theorem spells_string : Spells Decoder.string stringBytes FitsString := by
  intro bytes value rest
  constructor
  · intro h
    simp only [Decoder.string, Decoder.take, run_bind_eq_ok, u32_run, run_lift_eq_ok,
      rejectIf_eq_ok, run_takeBytes_eq_ok, fromUtf8_eq_ok] at h
    obtain ⟨length, _, rfl, _, _, ⟨hmax, rfl⟩, front, _, ⟨hlen, rfl⟩, rfl, rfl⟩ := h
    -- The length on the wire is the length of what was taken.
    have hle : (utf8Bytes value).length ≤ maxStringBytes := by omega
    rw [stringBytes, hlen, List.append_assoc]
    exact ⟨hle, rfl⟩
  · rintro ⟨hle, rfl⟩
    exact reads_string hle rest

/-- A list of strings is spelled by its number and the strings. -/
theorem spells_strings :
    Spells Decoder.strings (fun values => beBytes 2 values.length ++ values.flatMap stringBytes)
      (fun values => values.length ≤ maxArguments ∧ ∀ value ∈ values, FitsString value) := by
  intro bytes values rest
  simp only [Decoder.strings, run_bind_eq_ok, u16_run, run_lift_eq_ok, rejectIf_eq_ok,
    spells_string.readMany _ _ _ _]
  constructor
  · rintro ⟨count, _, rfl, _, _, ⟨hmax, rfl⟩, ⟨hlen, hall⟩, rfl⟩
    rw [hlen, List.append_assoc]
    exact ⟨⟨by omega, hall⟩, rfl⟩
  · rintro ⟨⟨hmax, hall⟩, rfl⟩
    have hsize : values.length < 2 ^ 16 := by
      have : maxArguments < 2 ^ 16 := by decide
      omega
    have hcount : (UInt16.ofNat values.length).toNat = values.length :=
      UInt16.toNat_ofNat_of_lt' hsize
    refine ⟨UInt16.ofNat values.length, _, ?_, (), _, ⟨by omega, rfl⟩, ⟨hcount.symm, hall⟩, rfl⟩
    rw [u16Bytes, hcount, List.append_assoc]

/-- What `push_strings` accepts and appends. -/
theorem pushStrings_eq_ok {payload out : Bytes} {values : List String} :
    pushStrings payload values = .ok out ↔
      (values.length ≤ maxArguments ∧ ∀ value ∈ values, FitsString value) ∧
        out = payload ++ (beBytes 2 values.length ++ values.flatMap stringBytes) := by
  -- The loop appends the strings one after the other.
  have hloop : ∀ (values : List String) (acc : Bytes),
      forEach values pushString acc = .ok out ↔
        (∀ value ∈ values, FitsString value) ∧ out = acc ++ values.flatMap stringBytes := by
    intro values
    induction values with
    | nil => simp [eq_comm]
    | cons value values ih =>
      intro acc
      simp only [forEach_cons, bind_eq_ok, pushString_eq_ok, ih, List.mem_cons, forall_eq_or_imp,
        List.flatMap_cons]
      constructor
      · rintro ⟨_, ⟨hvalue, rfl⟩, hall, rfl⟩
        exact ⟨⟨hvalue, hall⟩, by simp [stringBytes]⟩
      · rintro ⟨⟨hvalue, hall⟩, rfl⟩
        exact ⟨_, ⟨hvalue, rfl⟩, hall, by simp [stringBytes]⟩
  -- The number of strings fits its two bytes.
  have hmax : maxArguments < 2 ^ 16 := by decide
  simp only [pushStrings, bind_eq_ok, rejectIf_eq_ok, exists_const, hloop, List.append_assoc]
  constructor
  · rintro ⟨-, hlen, hall, hout⟩
    exact ⟨⟨by omega, hall⟩, hout⟩
  · rintro ⟨⟨hlen, hall⟩, hout⟩
    exact ⟨by omega, by omega, hall, hout⟩

/-- A payload is decoded when the reads return, whatever they leave. -/
theorem of_eq_ok {α : Type} {payload : Bytes} {r : Reader ProtocolError α} {value : α} :
    Decoder.of payload r = .ok value ↔ ∃ rest, r.run payload = .ok (value, rest) := by
  simp only [Decoder.of, bind_eq_ok, pure_eq_ok_iff, Prod.exists]
  constructor
  · rintro ⟨_, rest, h, rfl⟩
    exact ⟨rest, h⟩
  · rintro ⟨rest, h⟩
    exact ⟨value, rest, h, rfl⟩

theorem finish_run (bytes : Bytes) (u : Unit) (rest : Bytes) :
    Decoder.finish.run bytes = .ok (u, rest) ↔ bytes = [] ∧ rest = [] := by
  cases bytes with
  | nil =>
    show Except.ok ((), []) = Except.ok (u, rest) ↔ _
    simp [eq_comm]
  | cons b bytes => simp [Decoder.finish, StateT.run]

theorem reads_rest_run (bytes : Bytes) : Decoder.rest.run bytes = .ok (bytes, []) := rfl

theorem finish_run_nil : Decoder.finish.run [] = .ok ((), []) := rfl

end Lsw.Protocol
