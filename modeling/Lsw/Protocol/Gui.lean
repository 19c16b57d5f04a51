import Lsw.Protocol.Codec

/-!
# Seamless-Window Messages

`GuiWindowReady` announces a window and its size, `GuiWindowDamage` carries one changed
rectangle of it as BGRA bytes (`gui.rs`).  For both, what `encode` accepts `decode` reads
back unchanged; the acceptance conditions are stated as predicates so that a sender can
establish them without looking at the codec again.
-/

namespace Lsw.Protocol

open Lsw.Lib

/-! ## Messages -/

/-- `GuiWindowReady`. -/
structure GuiWindowReady where
  processId : UInt32
  windowId : UInt64
  width : UInt32
  height : UInt32
  title : String
  deriving DecidableEq

/-- `GuiWindowDamage`. -/
structure GuiWindowDamage where
  sequence : UInt64
  x : UInt32
  y : UInt32
  width : UInt32
  height : UInt32
  bgra : Bytes
  deriving DecidableEq

/-- `width * height * 4`, when it fits `usize`. -/
def bgraByteLength (width height : Nat) : Option Nat :=
  (checkedMul width height).bind fun pixels => checkedMul pixels 4

/-- `validate_gui_dimensions`. -/
def validateGuiDimensions (width height : UInt32) : Except ProtocolError Unit := do
  rejectIf (width = 0 ∨ height = 0 ∨ width.toNat > maxGuiWindowDimension ∨
      height.toNat > maxGuiWindowDimension)
    (.protocol s!"GUI window dimensions must be between 1 and {maxGuiWindowDimension}")
  let bytes ← okOr (bgraByteLength width.toNat height.toNat)
    (.protocol "GUI frame byte length overflowed")
  rejectIf (bytes > maxGuiFrameBytes)
    (.protocol s!"GUI frame exceeds the {maxGuiFrameBytes} byte memory limit")

/-- `u32::checked_add`. -/
def checkedAddU32 (a b : UInt32) : Option Nat :=
  if a.toNat + b.toNat < u32Size then some (a.toNat + b.toNat) else none

/-- `validate_gui_damage`. -/
def validateGuiDamage (damage : GuiWindowDamage) : Except ProtocolError Unit := do
  rejectIf (damage.width = 0 ∨ damage.height = 0 ∨
      damage.width.toNat > maxGuiDamageDimension ∨ damage.height.toNat > maxGuiDamageDimension)
    (.protocol s!"GUI damage dimensions must be between 1 and {maxGuiDamageDimension}")
  let right ← okOr (checkedAddU32 damage.x damage.width)
    (.protocol "GUI damage x coordinate overflowed")
  let bottom ← okOr (checkedAddU32 damage.y damage.height)
    (.protocol "GUI damage y coordinate overflowed")
  rejectIf (right > maxGuiWindowDimension ∨ bottom > maxGuiWindowDimension)
    (.protocol "GUI damage lies outside the supported window bounds")
  let expected ← okOr (bgraByteLength damage.width.toNat damage.height.toNat)
    (.protocol "GUI damage byte length overflowed")
  let received := damage.bgra.length
  rejectIf (received ≠ expected)
    (.protocol s!"GUI damage contains {received} bytes; expected {expected}")

namespace GuiWindowReady

/-- `GuiWindowReady::encode`. -/
def encode (ready : GuiWindowReady) : Except ProtocolError Bytes := do
  validateGuiDimensions ready.width ready.height
  rejectIf (ready.processId = 0) (.protocol "GUI process identifier must be non-zero")
  rejectIf (ready.windowId = 0) (.protocol "GUI window identifier must be non-zero")
  let payload := u32Bytes ready.processId ++ u64Bytes ready.windowId ++
    u32Bytes ready.width ++ u32Bytes ready.height
  pushString payload ready.title

/-- The field reads of `GuiWindowReady::decode`. -/
def fields : Reader ProtocolError GuiWindowReady := do
  let processId ← Decoder.u32
  let windowId ← Decoder.u64
  let width ← Decoder.u32
  let height ← Decoder.u32
  let title ← Decoder.string
  return { processId, windowId, width, height, title }

/-- `GuiWindowReady::decode`. -/
def decode (payload : Bytes) : Except ProtocolError GuiWindowReady := do
  let (ready, remaining) ← fields.run payload
  let _ ← Decoder.finish.run remaining
  let _ ← ready.encode
  return ready

end GuiWindowReady

namespace GuiWindowDamage

/-- `GuiWindowDamage::encode`. -/
def encode (damage : GuiWindowDamage) : Except ProtocolError Bytes := do
  validateGuiDamage damage
  return u64Bytes damage.sequence ++ u32Bytes damage.x ++ u32Bytes damage.y ++
    u32Bytes damage.width ++ u32Bytes damage.height ++ damage.bgra

/-- The fixed-size reads of `GuiWindowDamage::decode`. -/
def header : Reader ProtocolError GuiWindowDamage := do
  let sequence ← Decoder.u64
  let x ← Decoder.u32
  let y ← Decoder.u32
  let width ← Decoder.u32
  let height ← Decoder.u32
  return { sequence, x, y, width, height, bgra := [] }

/-- `GuiWindowDamage::decode`. -/
def decode (payload : Bytes) : Except ProtocolError GuiWindowDamage := do
  let (head, remaining) ← header.run payload
  let (bgra, remaining) ← Decoder.rest.run remaining
  let _ ← Decoder.finish.run remaining
  let damage := { head with bgra }
  validateGuiDamage damage
  return damage

end GuiWindowDamage

/-! ## What the validators accept -/

/-- Sizes a window, a captured frame and a host framebuffer may have. -/
structure ValidDimensions (width height : Nat) : Prop where
  width_pos : 1 ≤ width
  height_pos : 1 ≤ height
  width_le : width ≤ maxGuiWindowDimension
  height_le : height ≤ maxGuiWindowDimension
  bytes_le : width * height * 4 ≤ maxGuiFrameBytes

theorem bgraByteLength_eq {width height : Nat} (h : width * height * 4 < usizeSize) :
    bgraByteLength width height = some (width * height * 4) := by
  have hmul : width * height < usizeSize := by omega
  rw [bgraByteLength, checkedMul_eq_some hmul, Option.bind_some, checkedMul_eq_some h]

theorem ValidDimensions.byteLength {width height : Nat} (h : ValidDimensions width height) :
    bgraByteLength width height = some (width * height * 4) := by
  apply bgraByteLength_eq
  have hbytes := h.bytes_le
  have : maxGuiFrameBytes < usizeSize := by decide
  omega

theorem uint32_ne_zero_iff (v : UInt32) : v ≠ 0 ↔ 1 ≤ v.toNat := by
  rw [Ne, ← UInt32.toNat_inj]
  have : (0 : UInt32).toNat = 0 := rfl
  omega

theorem validateGuiDimensions_eq_ok {width height : UInt32}
    (h : ValidDimensions width.toNat height.toNat) :
    validateGuiDimensions width height = .ok () := by
  have hw := (uint32_ne_zero_iff width).mpr h.width_pos
  have hh := (uint32_ne_zero_iff height).mpr h.height_pos
  have hwle := h.width_le
  have hhle := h.height_le
  have hbytes := h.bytes_le
  unfold validateGuiDimensions
  rw [rejectIf_of_not _ (by simp [hw, hh]; omega), ok_bind, h.byteLength, okOr_some, ok_bind,
    rejectIf_of_not _ (by omega)]

/-- A damage rectangle of at most `MAX_GUI_DAMAGE_DIMENSION` a side, inside the largest
    window, with exactly its own pixels as payload. -/
structure ValidDamage (damage : GuiWindowDamage) : Prop where
  width_pos : 1 ≤ damage.width.toNat
  height_pos : 1 ≤ damage.height.toNat
  width_le : damage.width.toNat ≤ maxGuiDamageDimension
  height_le : damage.height.toNat ≤ maxGuiDamageDimension
  right_le : damage.x.toNat + damage.width.toNat ≤ maxGuiWindowDimension
  bottom_le : damage.y.toNat + damage.height.toNat ≤ maxGuiWindowDimension
  bgra_length : damage.bgra.length = damage.width.toNat * damage.height.toNat * 4

/-- Valid damage is accepted. -/
theorem validateGuiDamage_eq_ok {damage : GuiWindowDamage} (h : ValidDamage damage) :
    validateGuiDamage damage = .ok () := by
  obtain ⟨hw, hh, hwle, hhle, hright, hbottom, hlen⟩ := h
  have hmaxw : maxGuiWindowDimension < u32Size := by decide
  have hw0 := (uint32_ne_zero_iff damage.width).mpr hw
  have hh0 := (uint32_ne_zero_iff damage.height).mpr hh
  have hxr : checkedAddU32 damage.x damage.width = some (damage.x.toNat + damage.width.toNat) :=
    if_pos (by omega)
  have hyb : checkedAddU32 damage.y damage.height =
      some (damage.y.toNat + damage.height.toNat) := if_pos (by omega)
  have harea : damage.width.toNat * damage.height.toNat ≤
      maxGuiDamageDimension * maxGuiDamageDimension := Nat.mul_le_mul hwle hhle
  have hfit : damage.width.toNat * damage.height.toNat * 4 < usizeSize := by
    have : maxGuiDamageDimension * maxGuiDamageDimension * 4 < usizeSize := by decide
    omega
  unfold validateGuiDamage
  rw [rejectIf_of_not _ (by simp [hw0, hh0]; omega), ok_bind, hxr, okOr_some, ok_bind, hyb,
    okOr_some, ok_bind, rejectIf_of_not _ (by omega), ok_bind, bgraByteLength_eq hfit, okOr_some,
    ok_bind]
  exact rejectIf_of_not _ (by simp [hlen])

/-! ## Round trips -/

/-- A Ready message that `encode` accepts is read back unchanged. -/
theorem GuiWindowReady.decode_encode {ready : GuiWindowReady} {payload : Bytes}
    (h : ready.encode = .ok payload) : GuiWindowReady.decode payload = .ok ready := by
  have henc := h
  simp only [GuiWindowReady.encode, bind_eq_ok] at h
  obtain ⟨-, -, -, -, -, -, hpush⟩ := h
  obtain ⟨htitle, rfl⟩ := pushString_eq_ok.mp hpush
  have hread : Reads GuiWindowReady.fields
      (u32Bytes ready.processId ++ u64Bytes ready.windowId ++ u32Bytes ready.width ++
        u32Bytes ready.height ++
        (beBytes 4 (utf8Bytes ready.title).length ++ utf8Bytes ready.title)) ready := by
    unfold GuiWindowReady.fields
    simp only [List.append_assoc]
    refine Reads.bind rfl (reads_u32 _) (Reads.bind rfl (reads_u64 _) ?_)
    refine Reads.bind rfl (reads_u32 _) (Reads.bind rfl (reads_u32 _) ?_)
    rw [← List.append_nil (beBytes 4 _ ++ _)]
    exact Reads.bind rfl (reads_string htitle) (Reads.pure rfl)
  simp only [GuiWindowReady.decode, hread.run_eq, ok_bind, finish_run_nil, henc]
  rfl

/-- A damage message that `encode` accepts is read back unchanged. -/
theorem GuiWindowDamage.decode_encode {damage : GuiWindowDamage} {payload : Bytes}
    (h : damage.encode = .ok payload) : GuiWindowDamage.decode payload = .ok damage := by
  simp only [GuiWindowDamage.encode, bind_eq_ok, pure_eq_ok_iff] at h
  obtain ⟨_, hvalid, rfl⟩ := h
  have hread : Reads GuiWindowDamage.header
      (u64Bytes damage.sequence ++ u32Bytes damage.x ++ u32Bytes damage.y ++
        u32Bytes damage.width ++ u32Bytes damage.height) { damage with bgra := [] } := by
    unfold GuiWindowDamage.header
    simp only [List.append_assoc]
    refine Reads.bind rfl (reads_u64 _) (Reads.bind rfl (reads_u32 _) ?_)
    refine Reads.bind rfl (reads_u32 _) (Reads.bind rfl (reads_u32 _) ?_)
    rw [← List.append_nil (u32Bytes damage.height)]
    exact Reads.bind rfl (reads_u32 _) (Reads.pure rfl)
  simp only [GuiWindowDamage.decode, hread damage.bgra, ok_bind, reads_rest_run, finish_run_nil,
    hvalid]
  rfl

end Lsw.Protocol
