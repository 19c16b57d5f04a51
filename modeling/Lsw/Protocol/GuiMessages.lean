import Lsw.Protocol.Frame
import Lsw.Protocol.Gui
import Lsw.Protocol.Requests

/-!
# The Other GUI Messages

The messages that start a GUI program, ask for its icon, and carry input and window management
between host and guest (`gui.rs`), next to the frame messages of `Lsw.Protocol.Gui`.

A GUI message is checked on both sides: the encoder refuses what the decoder would refuse.  The
acceptance condition of each message is stated as a predicate `Valid` in terms of its fields, and
the last section shows that a decoded message meets it and re-encodes to the bytes it came from.
-/

namespace Lsw.Protocol

open Lsw.Lib

/-! ## Program names and reserved variables -/

/-- `text.to_ascii_lowercase().ends_with(".exe")`. -/
def endsInExe (text : String) : Bool := ".exe".toList.isSuffixOf (text.toList.map Char.toLower)

/-- `left.eq_ignore_ascii_case(right)`. -/
def eqIgnoreAsciiCase (left right : String) : Bool :=
  left.toList.map Char.toLower == right.toList.map Char.toLower

/-- The `RESERVED` names of `validate_gui_start`. -/
def reservedGuiVariables : List String :=
  ["LSW_DESKTOP_TOKEN", "LSW_LIVE_SHARE_TOKEN", "LSW_DESKTOP_USER", "LSW_ICON_SOURCE"]

/-- `validate_gui_start`. -/
def validateGuiStart (request : StartRequest) (environment : ProcessEnvironment) :
    Except ProtocolError Unit := do
  rejectIf (request.kind ≠ .run) (.protocol "GUI launch requires a run request")
  let program ← okOr request.argv.head? (.protocol "GUI launch requires an executable")
  rejectIf (¬ endsInExe program) (.protocol "GUI launch program must end in .exe")
  rejectIf (environment.vars.any fun (name, _) =>
      reservedGuiVariables.any fun reserved => eqIgnoreAsciiCase name reserved)
    (.protocol "GUI environment must not replace reserved LSW integration variables")

/-! ## Starting a program -/

/-- `GuiStartRequest`. -/
structure GuiStartRequest where
  userName : String
  request : StartRequest
  environment : ProcessEnvironment
  mountLiveShare : Bool
  deriving DecidableEq, Repr

namespace GuiStartRequest

/-- `GuiStartRequest::encode`. -/
def encode (unicode : UnicodeTables) (start : GuiStartRequest) : Except ProtocolError Bytes := do
  validateWindowsUserName start.userName
  validateGuiStart start.request start.environment
  let request ← start.request.encode
  let environment ← start.environment.encode unicode
  rejectIf (request.length ≥ u32Size) (.protocol "GUI start request is too long")
  let payload ← pushString [] start.userName
  let payload := payload ++ [flagByte start.mountLiveShare]
  let payload := payload ++ beBytes 4 request.length
  return payload ++ request ++ environment

/-- `GuiStartRequest::decode`. -/
def decode (unicode : UnicodeTables) (payload : Bytes) : Except ProtocolError GuiStartRequest :=
  Decoder.of payload do
    let userName ← Decoder.string
    let mountLiveShare ← readFlag false true (.protocol "GUI live-share flag must be zero or one")
    let requestLength ← Decoder.u32
    let requestBytes ← Decoder.take requestLength.toNat
    let request ← liftM (StartRequest.decode requestBytes)
    let environmentBytes ← Decoder.rest
    let environment ← liftM (ProcessEnvironment.decode unicode environmentBytes)
    Decoder.finish
    liftM (validateWindowsUserName userName)
    liftM (validateGuiStart request environment)
    return { userName, request, environment, mountLiveShare }

end GuiStartRequest

/-- `GuiIconRequest`. -/
structure GuiIconRequest where
  userName : String
  program : String
  deriving DecidableEq, Repr

namespace GuiIconRequest

/-- `GuiIconRequest::encode`. -/
def encode (request : GuiIconRequest) : Except ProtocolError Bytes := do
  validateWindowsUserName request.userName
  rejectIf (request.program = "" ∨ ¬ endsInExe request.program)
    (.protocol "GUI icon program must be a non-empty .exe path")
  let payload ← pushString [] request.userName
  pushString payload request.program

/-- `GuiIconRequest::decode`. -/
def decode (payload : Bytes) : Except ProtocolError GuiIconRequest :=
  Decoder.of payload do
    let userName ← Decoder.string
    let program ← Decoder.string
    Decoder.finish
    let request := { userName, program : GuiIconRequest }
    let _ ← liftM request.encode
    return request

end GuiIconRequest

/-! ## Window management -/

/-- `GuiWindowResize`. -/
structure GuiWindowResize where
  width : UInt32
  height : UInt32
  deriving DecidableEq, Repr

namespace GuiWindowResize

/-- `GuiWindowResize::encode`. -/
def encode (resize : GuiWindowResize) : Except ProtocolError Bytes := do
  validateGuiDimensions resize.width resize.height
  return u32Bytes resize.width ++ u32Bytes resize.height

/-- `GuiWindowResize::decode`. -/
def decode (payload : Bytes) : Except ProtocolError GuiWindowResize :=
  Decoder.of payload do
    let width ← Decoder.u32
    let height ← Decoder.u32
    Decoder.finish
    liftM (validateGuiDimensions width height)
    return { width, height }

end GuiWindowResize

/-- `GuiWindowAction`. -/
inductive GuiWindowAction where
  | move
  | minimize
  | maximize
  | close
  | resizeTopLeft
  | resizeTop
  | resizeTopRight
  | resizeRight
  | resizeBottomRight
  | resizeBottom
  | resizeBottomLeft
  | resizeLeft
  | restore
  deriving DecidableEq, Repr

namespace GuiWindowAction

/-- The byte `GuiWindowAction::encode` writes. -/
def toByte : GuiWindowAction → UInt8
  | .move => 1
  | .minimize => 2
  | .maximize => 3
  | .close => 4
  | .resizeTopLeft => 5
  | .resizeTop => 6
  | .resizeTopRight => 7
  | .resizeRight => 8
  | .resizeBottomRight => 9
  | .resizeBottom => 10
  | .resizeBottomLeft => 11
  | .resizeLeft => 12
  | .restore => 13

/-- `GuiWindowAction::encode`. -/
def encode (action : GuiWindowAction) : Bytes := [action.toByte]

/-- `GuiWindowAction::decode`. -/
def decode (payload : Bytes) : Except ProtocolError GuiWindowAction :=
  match payload with
  | [1] => .ok .move
  | [2] => .ok .minimize
  | [3] => .ok .maximize
  | [4] => .ok .close
  | [5] => .ok .resizeTopLeft
  | [6] => .ok .resizeTop
  | [7] => .ok .resizeTopRight
  | [8] => .ok .resizeRight
  | [9] => .ok .resizeBottomRight
  | [10] => .ok .resizeBottom
  | [11] => .ok .resizeBottomLeft
  | [12] => .ok .resizeLeft
  | [13] => .ok .restore
  | _ => .error (.protocol "GUI window action must contain one known action byte")

/-- `GuiWindowAction::is_drag`. -/
def isDrag : GuiWindowAction → Bool
  | .move | .resizeTopLeft | .resizeTop | .resizeTopRight | .resizeRight | .resizeBottomRight
  | .resizeBottom | .resizeBottomLeft | .resizeLeft => true
  | .minimize | .maximize | .close | .restore => false

end GuiWindowAction

/-- `u32::to_le_bytes`. -/
def u32LeBytes (value : UInt32) : Bytes := (u32Bytes value).reverse

/-- `u32::from_le_bytes`. -/
def u32OfLeBytes (bytes : Bytes) : UInt32 := UInt32.ofNat (ofBeBytes bytes.reverse)

/-- `GuiWindowDragHint`. -/
structure GuiWindowDragHint where
  x : UInt32
  y : UInt32
  action : Option GuiWindowAction
  deriving DecidableEq, Repr

namespace GuiWindowDragHint

/-- The action byte of `GuiWindowDragHint::encode`: zero for no action. -/
def actionByte (action : Option GuiWindowAction) : UInt8 := (action.map (·.toByte)).getD 0

/-- `GuiWindowDragHint::encode`. -/
def encode (hint : GuiWindowDragHint) : Except ProtocolError Bytes := do
  rejectIf (hint.x.toNat ≥ maxGuiWindowDimension ∨ hint.y.toNat ≥ maxGuiWindowDimension)
    (.protocol "GUI drag hint coordinates exceed the bounded window dimensions")
  rejectIf (∃ action ∈ hint.action, ¬ action.isDrag)
    (.protocol "GUI drag hint may contain only move or resize actions")
  return [actionByte hint.action] ++ u32LeBytes hint.x ++ u32LeBytes hint.y

/-- The action of `GuiWindowDragHint::decode`. -/
def decodeAction (byte : UInt8) : Except ProtocolError (Option GuiWindowAction) :=
  if byte = 0 then .ok none
  else do
    let action ← GuiWindowAction.decode [byte]
    rejectIf (¬ action.isDrag) (.protocol "GUI drag hint may contain only move or resize actions")
    return some action

/-- `GuiWindowDragHint::decode`. -/
def decode (payload : Bytes) : Except ProtocolError GuiWindowDragHint :=
  match payload with
  | [action, x0, x1, x2, x3, y0, y1, y2, y3] => do
    let action ← decodeAction action
    let hint : GuiWindowDragHint :=
      { x := u32OfLeBytes [x0, x1, x2, x3], y := u32OfLeBytes [y0, y1, y2, y3], action }
    rejectIf (hint.x.toNat ≥ maxGuiWindowDimension ∨ hint.y.toNat ≥ maxGuiWindowDimension)
      (.protocol "GUI drag hint coordinates exceed the bounded window dimensions")
    return hint
  | _ => .error (.protocol "GUI drag hint must contain one action byte and two coordinates")

end GuiWindowDragHint

/-! ## Input -/

/-- `GuiPointerButton`. -/
inductive GuiPointerButton where
  | left
  | right
  | middle
  | back
  | forward
  deriving DecidableEq, Repr

/-- `GuiPointerButton::encode`. -/
def GuiPointerButton.encode : GuiPointerButton → UInt8
  | .left => 1
  | .right => 2
  | .middle => 3
  | .back => 4
  | .forward => 5

/-- `GuiPointerButton::decode`. -/
def GuiPointerButton.decode (value : UInt8) : Except ProtocolError GuiPointerButton :=
  match value with
  | 1 => .ok .left
  | 2 => .ok .right
  | 3 => .ok .middle
  | 4 => .ok .back
  | 5 => .ok .forward
  | _ => .error (.protocol s!"unknown GUI pointer button {value}")

/-- `GuiInputEvent`. -/
inductive GuiInputEvent where
  | focus (focused : Bool)
  | key (virtualKey scanCode : UInt16) (pressed extended : Bool)
  | pointerMove (x y : UInt32)
  | pointerButton (button : GuiPointerButton) (pressed : Bool) (x y : UInt32)
  | pointerWheel (delta : Int16) (horizontal : Bool) (x y : UInt32)
  deriving DecidableEq, Repr

/-- `validate_gui_coordinate`. -/
def validateGuiCoordinate (x y : UInt32) : Except ProtocolError Unit :=
  rejectIf (x.toNat ≥ maxGuiWindowDimension ∨ y.toNat ≥ maxGuiWindowDimension)
    (.protocol "GUI pointer coordinate exceeds the supported window bounds")

namespace GuiInputEvent

/-- `GuiInputEvent::encode`. -/
def encode : GuiInputEvent → Except ProtocolError Bytes
  | .focus focused => .ok [1, flagByte focused]
  | .key virtualKey scanCode pressed extended => do
    rejectIf (virtualKey = 0 ∨ virtualKey.toNat > 255)
      (.protocol "GUI virtual key must be in the Windows byte-sized VK range")
    return [2] ++ u16Bytes virtualKey ++ u16Bytes scanCode ++ [flagByte pressed] ++
      [flagByte extended]
  | .pointerMove x y => do
    validateGuiCoordinate x y
    return [3] ++ u32Bytes x ++ u32Bytes y
  | .pointerButton button pressed x y => do
    validateGuiCoordinate x y
    return [4, button.encode, flagByte pressed] ++ u32Bytes x ++ u32Bytes y
  | .pointerWheel delta horizontal x y => do
    rejectIf (delta = 0) (.protocol "GUI pointer wheel delta must be non-zero")
    validateGuiCoordinate x y
    return [5] ++ i16Bytes delta ++ [flagByte horizontal] ++ u32Bytes x ++ u32Bytes y

/-- `decode_bool` on the next byte. -/
def readBool (field : String) : Reader ProtocolError Bool :=
  readFlag false true (.protocol s!"{field} flag must be zero or one")

/-- The fields of `GuiInputEvent::decode` behind the kind byte. -/
def readFields (kind : UInt8) : Reader ProtocolError GuiInputEvent :=
  match kind with
  | 1 => do return .focus (← readBool "GUI focus")
  | 2 => do
    let virtualKey ← Decoder.u16
    let scanCode ← Decoder.u16
    let pressed ← readBool "GUI key pressed"
    let extended ← readBool "GUI key extended"
    return .key virtualKey scanCode pressed extended
  | 3 => do
    let x ← Decoder.u32
    let y ← Decoder.u32
    return .pointerMove x y
  | 4 => do
    let button ← liftM (GuiPointerButton.decode (← Decoder.u8))
    let pressed ← readBool "GUI pointer button pressed"
    let x ← Decoder.u32
    let y ← Decoder.u32
    return .pointerButton button pressed x y
  | 5 => do
    let delta ← Decoder.i16
    let horizontal ← readBool "GUI pointer wheel direction"
    let x ← Decoder.u32
    let y ← Decoder.u32
    return .pointerWheel delta horizontal x y
  | kind => liftM (Except.error (ProtocolError.protocol s!"unknown GUI input event kind {kind}"))

/-- `GuiInputEvent::decode`. -/
def decode (payload : Bytes) : Except ProtocolError GuiInputEvent :=
  Decoder.of payload do
    let kind ← Decoder.u8
    let event ← readFields kind
    Decoder.finish
    let _ ← liftM event.encode
    return event

end GuiInputEvent

/-! ## What a decoded message satisfies -/

/-- The dimensions that are accepted are the valid ones. -/
theorem validateGuiDimensions_iff {width height : UInt32} {u : Unit} :
    validateGuiDimensions width height = .ok u ↔
      ValidDimensions width.toNat height.toNat := by
  constructor
  · intro h
    simp only [validateGuiDimensions, bind_eq_ok, rejectIf_eq_ok, exists_const, okOr_eq_ok,
      not_or, not_lt] at h
    obtain ⟨⟨hw, hh, hwle, hhle⟩, bytes, hbytes, hmax⟩ := h
    have hfit : width.toNat * height.toNat * 4 < usizeSize := by
      have harea : width.toNat * height.toNat ≤ maxGuiWindowDimension * maxGuiWindowDimension :=
        Nat.mul_le_mul hwle hhle
      have : maxGuiWindowDimension * maxGuiWindowDimension * 4 < usizeSize := by decide
      omega
    rw [bgraByteLength_eq hfit, Option.some.injEq] at hbytes
    subst hbytes
    exact ⟨(uint32_ne_zero_iff width).mp hw, (uint32_ne_zero_iff height).mp hh, hwle, hhle, hmax⟩
  · exact validateGuiDimensions_eq_ok

theorem checkedAddU32_eq_some {a b : UInt32} {sum : Nat} (h : checkedAddU32 a b = some sum) :
    sum = a.toNat + b.toNat := by
  unfold checkedAddU32 at h
  split at h
  · exact (Option.some.inj h).symm
  · cases h

theorem validateGuiDamage_iff {damage : GuiWindowDamage} {u : Unit} :
    validateGuiDamage damage = .ok u ↔ ValidDamage damage := by
  constructor
  · intro h
    simp only [validateGuiDamage, bind_eq_ok, rejectIf_eq_ok, exists_const, okOr_eq_ok, not_or,
      not_lt, ne_eq, not_not] at h
    obtain ⟨⟨hw, hh, hwle, hhle⟩, right, hright, bottom, hbottom, ⟨hrightle, hbottomle⟩, expected,
      hexpected, hlen⟩ := h
    have hfit : damage.width.toNat * damage.height.toNat * 4 < usizeSize := by
      have harea : damage.width.toNat * damage.height.toNat ≤
          maxGuiDamageDimension * maxGuiDamageDimension := Nat.mul_le_mul hwle hhle
      have : maxGuiDamageDimension * maxGuiDamageDimension * 4 < usizeSize := by decide
      omega
    rw [bgraByteLength_eq hfit, Option.some.injEq] at hexpected
    rw [checkedAddU32_eq_some hright] at hrightle
    rw [checkedAddU32_eq_some hbottom] at hbottomle
    exact ⟨(uint32_ne_zero_iff _).mp hw, (uint32_ne_zero_iff _).mp hh, hwle, hhle, hrightle,
      hbottomle, hlen.trans hexpected.symm⟩
  · exact validateGuiDamage_eq_ok

/-- What `GuiWindowReady` may announce. -/
structure GuiWindowReady.Valid (ready : GuiWindowReady) : Prop where
  dimensions : ValidDimensions ready.width.toNat ready.height.toNat
  process : ready.processId ≠ 0
  window : ready.windowId ≠ 0

/-- What `GuiStartRequest` may start. -/
structure GuiStartRequest.Valid (unicode : UnicodeTables) (start : GuiStartRequest) : Prop where
  user : validateWindowsUserName start.userName = .ok ()
  run : start.request.kind = .run
  program : ∃ program ∈ start.request.argv.head?, endsInExe program
  reserved : ∀ entry ∈ start.environment.vars, ∀ name ∈ reservedGuiVariables,
    ¬ eqIgnoreAsciiCase entry.1 name
  environment : ProcessEnvironment.validateEnvironment unicode start.environment.vars = .ok ()

/-- What `GuiIconRequest` may ask for. -/
structure GuiIconRequest.Valid (request : GuiIconRequest) : Prop where
  user : validateWindowsUserName request.userName = .ok ()
  program : request.program ≠ "" ∧ endsInExe request.program

/-- Where a drag hint may lie and what it may start. -/
structure GuiWindowDragHint.Valid (hint : GuiWindowDragHint) : Prop where
  x_lt : hint.x.toNat < maxGuiWindowDimension
  y_lt : hint.y.toNat < maxGuiWindowDimension
  drag : ∀ action ∈ hint.action, action.isDrag

/-- The input events that are sent. -/
def GuiInputEvent.Valid : GuiInputEvent → Prop
  | .focus _ => True
  | .key virtualKey _ _ _ => 1 ≤ virtualKey.toNat ∧ virtualKey.toNat ≤ 255
  | .pointerMove x y => x.toNat < maxGuiWindowDimension ∧ y.toNat < maxGuiWindowDimension
  | .pointerButton _ _ x y => x.toNat < maxGuiWindowDimension ∧ y.toNat < maxGuiWindowDimension
  | .pointerWheel delta _ x y =>
    delta ≠ 0 ∧ x.toNat < maxGuiWindowDimension ∧ y.toNat < maxGuiWindowDimension

/-! ## Frame messages -/

theorem GuiWindowReady.encode_eq_ok {ready : GuiWindowReady} {payload : Bytes} :
    ready.encode = .ok payload ↔ ready.Valid ∧ FitsString ready.title ∧
      payload = u32Bytes ready.processId ++ (u64Bytes ready.windowId ++ (u32Bytes ready.width ++
        (u32Bytes ready.height ++ stringBytes ready.title))) := by
  simp only [encode, bind_eq_ok, validateGuiDimensions_iff, rejectIf_eq_ok, exists_const,
    pushString_iff, List.append_assoc]
  constructor
  · rintro ⟨hdimensions, hprocess, hwindow, hfits, hpayload⟩
    exact ⟨⟨hdimensions, hprocess, hwindow⟩, hfits, hpayload⟩
  · rintro ⟨hvalid, hfits, hpayload⟩
    exact ⟨hvalid.dimensions, hvalid.process, hvalid.window, hfits, hpayload⟩

theorem GuiWindowReady.decode_eq_ok {payload : Bytes} {ready : GuiWindowReady} :
    decode payload = .ok ready ↔ ready.encode = .ok payload := by
  constructor
  · intro h
    simp only [decode, fields, bind_eq_ok, Prod.exists, run_bind_eq_ok, u32_run, u64_run,
      string_run, run_pure_eq_ok, finish_run, pure_eq_ok_iff] at h
    obtain ⟨_, _, ⟨process, _, rfl, window, _, rfl, width, _, rfl, height, _, rfl, title, _,
      ⟨-, rfl⟩, rfl, rfl⟩, _, _, ⟨rfl, -⟩, out, hencode, rfl⟩ := h
    have hout := (encode_eq_ok.mp hencode).2.2
    rw [hencode, hout, List.append_nil]
  · exact GuiWindowReady.decode_encode

theorem GuiWindowDamage.encode_eq_ok {damage : GuiWindowDamage} {payload : Bytes} :
    damage.encode = .ok payload ↔ ValidDamage damage ∧
      payload = u64Bytes damage.sequence ++ (u32Bytes damage.x ++ (u32Bytes damage.y ++
        (u32Bytes damage.width ++ (u32Bytes damage.height ++ damage.bgra)))) := by
  simp only [encode, bind_eq_ok, validateGuiDamage_iff, exists_const, pure_eq_ok_iff,
    List.append_assoc]
  exact and_congr_right fun _ => eq_comm

theorem GuiWindowDamage.decode_eq_ok {payload : Bytes} {damage : GuiWindowDamage} :
    decode payload = .ok damage ↔ damage.encode = .ok payload := by
  constructor
  · intro h
    simp only [decode, header, bind_eq_ok, Prod.exists, run_bind_eq_ok, u32_run, u64_run,
      run_pure_eq_ok, reads_rest_run, finish_run, pure_eq_ok_iff, validateGuiDamage_iff,
      Except.ok.injEq, Prod.mk.injEq] at h
    obtain ⟨_, _, ⟨sequence, _, rfl, x, _, rfl, y, _, rfl, width, _, rfl, height, _, rfl, rfl,
      rfl⟩, bgra, _, ⟨rfl, rfl⟩, _, _, -, _, hvalid, rfl⟩ := h
    exact encode_eq_ok.mpr ⟨hvalid, rfl⟩
  · exact GuiWindowDamage.decode_encode

theorem GuiWindowResize.encode_eq_ok {resize : GuiWindowResize} {payload : Bytes} :
    resize.encode = .ok payload ↔
      ValidDimensions resize.width.toNat resize.height.toNat ∧
        payload = u32Bytes resize.width ++ u32Bytes resize.height := by
  simp only [encode, bind_eq_ok, validateGuiDimensions_iff, exists_const, pure_eq_ok_iff]
  exact and_congr_right fun _ => eq_comm

theorem GuiWindowResize.decode_eq_ok {payload : Bytes} {resize : GuiWindowResize} :
    decode payload = .ok resize ↔ resize.encode = .ok payload := by
  simp only [decode, encode_eq_ok, of_eq_ok, run_bind_eq_ok, u32_run, finish_run, run_lift_eq_ok,
    validateGuiDimensions_iff, run_pure_eq_ok]
  constructor
  · rintro ⟨_, width, _, rfl, height, _, rfl, _, _, ⟨rfl, rfl⟩, _, _, ⟨hvalid, rfl⟩, rfl, rfl⟩
    exact ⟨hvalid, by simp⟩
  · rintro ⟨hvalid, rfl⟩
    exact ⟨[], resize.width, _, rfl, resize.height, [], by simp, (), [], ⟨rfl, rfl⟩, (), [],
      ⟨hvalid, rfl⟩, rfl, rfl⟩

/-! ## Requests -/

theorem GuiIconRequest.encode_eq_ok {request : GuiIconRequest} {payload : Bytes} :
    request.encode = .ok payload ↔
      request.Valid ∧ FitsString request.userName ∧ FitsString request.program ∧
        payload = stringBytes request.userName ++ stringBytes request.program := by
  simp only [encode, bind_eq_ok, rejectIf_eq_ok, exists_const, pushString_iff, not_or, not_not,
    List.nil_append]
  constructor
  · rintro ⟨_, huser, ⟨hne, hexe⟩, _, ⟨huserFits, rfl⟩, hprogramFits, rfl⟩
    exact ⟨⟨huser, hne, hexe⟩, huserFits, hprogramFits, rfl⟩
  · rintro ⟨hvalid, huserFits, hprogramFits, rfl⟩
    exact ⟨(), hvalid.user, hvalid.program, _, ⟨huserFits, rfl⟩, hprogramFits, rfl⟩

theorem GuiIconRequest.decode_eq_ok {payload : Bytes} {request : GuiIconRequest} :
    decode payload = .ok request ↔ request.encode = .ok payload := by
  simp only [decode, of_eq_ok, run_bind_eq_ok, string_run, finish_run, run_lift_eq_ok,
    run_pure_eq_ok, encode_eq_ok]
  constructor
  · rintro ⟨_, user, _, ⟨-, rfl⟩, program, _, ⟨-, rfl⟩, _, _, ⟨rfl, rfl⟩, out, _,
      ⟨⟨hvalid, huserFits, hprogramFits, rfl⟩, rfl⟩, rfl, rfl⟩
    exact ⟨hvalid, huserFits, hprogramFits, by simp⟩
  · rintro ⟨hvalid, huserFits, hprogramFits, rfl⟩
    exact ⟨[], request.userName, _, ⟨huserFits, rfl⟩, request.program, [],
      ⟨hprogramFits, by simp⟩, (), [], ⟨rfl, rfl⟩, _, [],
      ⟨⟨hvalid, huserFits, hprogramFits, rfl⟩, rfl⟩, rfl, rfl⟩

theorem validateGuiStart_iff {request : StartRequest} {environment : ProcessEnvironment}
    {u : Unit} :
    validateGuiStart request environment = .ok u ↔
      request.kind = .run ∧ (∃ program ∈ request.argv.head?, endsInExe program) ∧
        ∀ entry ∈ environment.vars, ∀ name ∈ reservedGuiVariables,
          ¬ eqIgnoreAsciiCase entry.1 name := by
  simp only [validateGuiStart, bind_eq_ok, rejectIf_eq_ok, exists_const, okOr_eq_ok, ne_eq,
    not_not, List.any_eq_true, not_exists, not_and, Option.mem_def]
  constructor
  · rintro ⟨hrun, program, hprogram, hexe, hreserved⟩
    exact ⟨hrun, ⟨program, hprogram, hexe⟩, hreserved⟩
  · rintro ⟨hrun, ⟨program, hprogram, hexe⟩, hreserved⟩
    exact ⟨hrun, program, hprogram, hexe, hreserved⟩

theorem rest_run (bytes value rest : Bytes) :
    Decoder.rest.run bytes = .ok (value, rest) ↔ value = bytes ∧ rest = [] := by
  rw [reads_rest_run, Except.ok.injEq, Prod.mk.injEq]
  exact and_congr eq_comm eq_comm

theorem GuiStartRequest.encode_eq_ok {unicode : UnicodeTables} {start : GuiStartRequest}
    {payload : Bytes} :
    start.encode unicode = .ok payload ↔
      validateWindowsUserName start.userName = .ok () ∧
      validateGuiStart start.request start.environment = .ok () ∧
      ∃ request environment, start.request.encode = .ok request ∧
        start.environment.encode unicode = .ok environment ∧ request.length < u32Size ∧
        FitsString start.userName ∧
        payload = stringBytes start.userName ++ (flagByte start.mountLiveShare ::
          (beBytes 4 request.length ++ (request ++ environment))) := by
  simp only [encode, bind_eq_ok, exists_const, rejectIf_eq_ok, ge_iff_le, not_le, pushString_iff,
    pure_eq_ok_iff, List.nil_append, List.append_assoc, List.singleton_append]
  constructor
  · rintro ⟨_, huser, _, hstart, request, hrequest, environment, henvironment, hlen, _,
      ⟨hfits, rfl⟩, rfl⟩
    exact ⟨huser, hstart, request, environment, hrequest, henvironment, hlen, hfits, rfl⟩
  · rintro ⟨huser, hstart, request, environment, hrequest, henvironment, hlen, hfits, rfl⟩
    exact ⟨(), huser, (), hstart, request, hrequest, environment, henvironment, hlen, _,
      ⟨hfits, rfl⟩, rfl⟩

theorem GuiStartRequest.decode_eq_ok {unicode : UnicodeTables} {payload : Bytes}
    {start : GuiStartRequest} :
    decode unicode payload = .ok start ↔ start.encode unicode = .ok payload := by
  simp only [decode, of_eq_ok, run_bind_eq_ok, string_run, readFlag_bool_run, u32_run,
    Decoder.take, run_takeBytes_eq_ok, run_lift_eq_ok, StartRequest.decode_eq_ok, rest_run,
    ProcessEnvironment.decode_eq_ok, finish_run, run_pure_eq_ok, encode_eq_ok]
  constructor
  · rintro ⟨_, user, _, ⟨hfits, rfl⟩, mount, _, rfl, length, _, rfl, request, _, ⟨hlen, rfl⟩,
      start, _, ⟨⟨hargv, hrequest⟩, rfl⟩, _, _, ⟨rfl, rfl⟩, environment, _, ⟨henvironment, rfl⟩,
      _, _, ⟨-, rfl⟩, _, _, ⟨huser, rfl⟩, _, _, ⟨hstart, rfl⟩, rfl, rfl⟩
    refine ⟨huser, hstart, request, _, hrequest, henvironment, ?_, hfits, ?_⟩
    · rw [hlen]
      exact length.toNat_lt
    · rw [hlen, u32Bytes]
  · rintro ⟨huser, hstart, request, environment, hrequest, henvironment, hlt, hfits, rfl⟩
    have hlen : (UInt32.ofNat request.length).toNat = request.length :=
      UInt32.toNat_ofNat_of_lt' hlt
    -- An executable is there, so the request is one that the decoder accepts.
    have hargv : start.request.argv ≠ [] := by
      obtain ⟨-, ⟨program, hprogram, -⟩, -⟩ := validateGuiStart_iff.mp hstart
      intro hnil
      simp [hnil] at hprogram
    refine ⟨[], start.userName, _, ⟨hfits, rfl⟩, start.mountLiveShare, _, rfl,
      UInt32.ofNat request.length, request ++ environment, ?_, request, environment,
      ⟨hlen.symm, rfl⟩, start.request, _, ⟨⟨hargv, hrequest⟩, rfl⟩, environment, [], ⟨rfl, rfl⟩,
      start.environment, [], ⟨henvironment, rfl⟩, (), [], ⟨rfl, rfl⟩, (), [], ⟨huser, rfl⟩, (), [],
      ⟨hstart, rfl⟩, rfl, rfl⟩
    rw [u32Bytes, hlen]

theorem GuiStartRequest.valid_of_encode {unicode : UnicodeTables} {start : GuiStartRequest}
    {payload : Bytes} (h : start.encode unicode = .ok payload) : start.Valid unicode := by
  obtain ⟨huser, hstart, _, _, _, henvironment, -⟩ := encode_eq_ok.mp h
  obtain ⟨hrun, hprogram, hreserved⟩ := validateGuiStart_iff.mp hstart
  simp only [ProcessEnvironment.encode, bind_eq_ok] at henvironment
  obtain ⟨_, hvalid, -⟩ := henvironment
  exact ⟨huser, hrun, hprogram, hreserved, hvalid⟩

/-! ## Drag hints -/

theorem u32OfLeBytes_eq_iff {bytes : Bytes} (h : bytes.length = 4) {value : UInt32} :
    u32OfLeBytes bytes = value ↔ bytes = u32LeBytes value := by
  have hlen : bytes.reverse.length = 4 := by rw [List.length_reverse, h]
  have hlt : ofBeBytes bytes.reverse < 2 ^ 32 := by simpa using ofBeBytes_lt hlen
  constructor
  · rintro rfl
    rw [u32LeBytes, u32OfLeBytes, u32Bytes, UInt32.toNat_ofNat_of_lt' hlt,
      beBytes_ofBeBytes hlen, List.reverse_reverse]
  · rintro rfl
    have hvalue : value.toNat < 256 ^ 4 := by simpa using value.toNat_lt
    rw [u32OfLeBytes, u32LeBytes, List.reverse_reverse, u32Bytes, ofBeBytes_beBytes_of_lt hvalue,
      UInt32.ofNat_toNat]

/-- The two tables of drag actions agree; zero stands for no action. -/
theorem GuiWindowDragHint.decodeAction_eq_ok {byte : UInt8} {action : Option GuiWindowAction} :
    decodeAction byte = .ok action ↔
      (∀ a ∈ action, a.isDrag) ∧ byte = actionByte action := by
  -- Byte by byte: an action that is found is a drag and written as that byte.
  have htable : ∀ byte : UInt8, ((decodeAction byte).toOption.all fun action =>
      action.all (·.isDrag) && byte == actionByte action) = true := by
    apply forall_byte
    decide +kernel
  constructor
  · intro h
    have hbyte := htable byte
    rw [h] at hbyte
    simpa [Except.toOption, Option.all_eq_true] using hbyte
  · rintro ⟨hdrag, rfl⟩
    cases action with
    | none => rfl
    | some a =>
      have ha := hdrag a rfl
      cases a <;> first | rfl | cases ha

theorem GuiWindowDragHint.encode_eq_ok {hint : GuiWindowDragHint} {payload : Bytes} :
    hint.encode = .ok payload ↔ hint.Valid ∧
      payload = actionByte hint.action :: (u32LeBytes hint.x ++ u32LeBytes hint.y) := by
  simp only [encode, bind_eq_ok, rejectIf_eq_ok, exists_const, pure_eq_ok_iff, not_or, not_le,
    ge_iff_le, not_exists, not_and, not_not, List.cons_append]
  constructor
  · rintro ⟨⟨hx, hy⟩, hdrag, rfl⟩
    exact ⟨⟨hx, hy, hdrag⟩, rfl⟩
  · rintro ⟨hvalid, rfl⟩
    exact ⟨⟨hvalid.x_lt, hvalid.y_lt⟩, hvalid.drag, rfl⟩

theorem GuiWindowDragHint.decode_eq_ok {payload : Bytes} {hint : GuiWindowDragHint} :
    decode payload = .ok hint ↔ hint.encode = .ok payload := by
  rw [encode_eq_ok]
  constructor
  · intro h
    unfold decode at h
    split at h
    -- One byte of the action and four of each coordinate.
    · next action x0 x1 x2 x3 y0 y1 y2 y3 =>
      simp only [bind_eq_ok, decodeAction_eq_ok, rejectIf_eq_ok, exists_const, pure_eq_ok_iff,
        not_or, ge_iff_le, not_le] at h
      obtain ⟨found, ⟨hdrag, rfl⟩, ⟨hx, hy⟩, rfl⟩ := h
      have hxs := (u32OfLeBytes_eq_iff (show [x0, x1, x2, x3].length = 4 from rfl)).mp rfl
      have hys := (u32OfLeBytes_eq_iff (show [y0, y1, y2, y3].length = 4 from rfl)).mp rfl
      exact ⟨⟨hx, hy, hdrag⟩, by rw [← hxs, ← hys]; rfl⟩
    · cases h
  -- Conversely, every coordinate has four bytes.
  · rintro ⟨hvalid, rfl⟩
    obtain ⟨x0, x1, x2, x3, hxs⟩ := List.length_eq_four.mp (length_beBytes 4 hint.x.toNat)
    obtain ⟨y0, y1, y2, y3, hys⟩ := List.length_eq_four.mp (length_beBytes 4 hint.y.toNat)
    have hx : u32LeBytes hint.x = [x3, x2, x1, x0] := by rw [u32LeBytes, u32Bytes, hxs]; rfl
    have hy : u32LeBytes hint.y = [y3, y2, y1, y0] := by rw [u32LeBytes, u32Bytes, hys]; rfl
    have hxval := (u32OfLeBytes_eq_iff (by rfl)).mpr hx.symm
    have hyval := (u32OfLeBytes_eq_iff (by rfl)).mpr hy.symm
    rw [hx, hy]
    simp only [List.cons_append, List.nil_append, decode, bind_eq_ok, decodeAction_eq_ok,
      rejectIf_eq_ok, exists_const, pure_eq_ok_iff, hxval, hyval, not_or, ge_iff_le, not_le]
    exact ⟨hint.action, ⟨hvalid.drag, rfl⟩, ⟨hvalid.x_lt, hvalid.y_lt⟩, rfl⟩

/-! ## Input events -/

theorem GuiPointerButton.decode_eq_ok {value : UInt8} {button : GuiPointerButton} :
    decode value = .ok button ↔ value = button.encode := by
  constructor
  · intro h
    unfold decode at h
    split at h <;> cases h <;> rfl
  · rintro rfl
    cases button <;> rfl

namespace GuiInputEvent

/-- The fields of an event behind its kind byte. -/
def fieldBytes : GuiInputEvent → Bytes
  | .focus focused => [flagByte focused]
  | .key virtualKey scanCode pressed extended =>
    u16Bytes virtualKey ++ (u16Bytes scanCode ++ [flagByte pressed, flagByte extended])
  | .pointerMove x y => u32Bytes x ++ u32Bytes y
  | .pointerButton button pressed x y =>
    button.encode :: flagByte pressed :: (u32Bytes x ++ u32Bytes y)
  | .pointerWheel delta horizontal x y =>
    i16Bytes delta ++ (flagByte horizontal :: (u32Bytes x ++ u32Bytes y))

/-- The kind byte of an event. -/
def kindByte : GuiInputEvent → UInt8
  | .focus .. => 1
  | .key .. => 2
  | .pointerMove .. => 3
  | .pointerButton .. => 4
  | .pointerWheel .. => 5

theorem validateGuiCoordinate_iff {x y : UInt32} {u : Unit} :
    validateGuiCoordinate x y = .ok u ↔
      x.toNat < maxGuiWindowDimension ∧ y.toNat < maxGuiWindowDimension := by
  simp [validateGuiCoordinate, rejectIf_eq_ok]

theorem uint16_ne_zero_iff (v : UInt16) : v ≠ 0 ↔ 1 ≤ v.toNat := by
  rw [Ne, ← UInt16.toNat_inj]
  have : (0 : UInt16).toNat = 0 := rfl
  omega

theorem encode_eq_ok {event : GuiInputEvent} {payload : Bytes} :
    event.encode = .ok payload ↔ event.Valid ∧ payload = event.kindByte :: event.fieldBytes := by
  cases event with
  | focus focused => simp [encode, Valid, kindByte, fieldBytes, eq_comm]
  | key virtualKey scanCode pressed extended =>
    simp only [encode, Valid, kindByte, fieldBytes, bind_eq_ok, rejectIf_eq_ok, exists_const,
      pure_eq_ok_iff, not_or, not_lt, List.append_assoc, List.cons_append, List.nil_append,
      ← uint16_ne_zero_iff, ne_eq, @eq_comm _ payload]
  | pointerMove x y =>
    simp only [encode, Valid, kindByte, fieldBytes, bind_eq_ok, exists_const, pure_eq_ok_iff,
      validateGuiCoordinate_iff, List.cons_append, List.nil_append, @eq_comm _ payload]
  | pointerButton button pressed x y =>
    simp only [encode, Valid, kindByte, fieldBytes, bind_eq_ok, exists_const, pure_eq_ok_iff,
      validateGuiCoordinate_iff, List.cons_append, List.nil_append, @eq_comm _ payload]
  | pointerWheel delta horizontal x y =>
    simp only [encode, Valid, kindByte, fieldBytes, bind_eq_ok, rejectIf_eq_ok, exists_const,
      pure_eq_ok_iff, validateGuiCoordinate_iff, List.append_assoc, List.cons_append,
      List.nil_append, ne_eq, and_assoc, @eq_comm _ payload]

theorem readFields_run (kind : UInt8) (bytes : Bytes) (event : GuiInputEvent) (rest : Bytes) :
    (readFields kind).run bytes = .ok (event, rest) ↔
      kind = event.kindByte ∧ bytes = event.fieldBytes ++ rest := by
  constructor
  · intro h
    unfold readFields at h
    -- One case per kind byte; the last one is the unknown kinds.
    split at h <;>
      simp only [readBool, run_bind_eq_ok, run_pure_eq_ok, readFlag_bool_run, u16_run, i16_run,
        u32_run, u8_run, run_lift_eq_ok, GuiPointerButton.decode_eq_ok, reduceCtorEq,
        false_and] at h
    · obtain ⟨focused, _, rfl, rfl, rfl⟩ := h
      exact ⟨rfl, rfl⟩
    · obtain ⟨virtualKey, _, rfl, scanCode, _, rfl, pressed, _, rfl, extended, _, rfl, rfl, rfl⟩ := h
      exact ⟨rfl, by simp [fieldBytes]⟩
    · obtain ⟨x, _, rfl, y, _, rfl, rfl, rfl⟩ := h
      exact ⟨rfl, by simp [fieldBytes]⟩
    · obtain ⟨_, _, rfl, button, _, ⟨rfl, rfl⟩, pressed, _, rfl, x, _, rfl, y, _, rfl, rfl, rfl⟩ := h
      exact ⟨rfl, by simp [fieldBytes]⟩
    · obtain ⟨delta, _, rfl, horizontal, _, rfl, x, _, rfl, y, _, rfl, rfl, rfl⟩ := h
      exact ⟨rfl, by simp [fieldBytes]⟩
  · rintro ⟨rfl, rfl⟩
    cases event with
    | focus focused =>
      simp only [kindByte, fieldBytes, readFields, readBool, run_bind_eq_ok, run_pure_eq_ok,
        readFlag_bool_run]
      exact ⟨focused, rest, rfl, rfl, rfl⟩
    | key virtualKey scanCode pressed extended =>
      simp only [kindByte, fieldBytes, readFields, readBool, run_bind_eq_ok, run_pure_eq_ok,
        readFlag_bool_run, u16_run, List.append_assoc]
      exact ⟨virtualKey, _, rfl, scanCode, _, rfl, pressed, _, rfl, extended, rest, rfl, rfl, rfl⟩
    | pointerMove x y =>
      simp only [kindByte, fieldBytes, readFields, run_bind_eq_ok, run_pure_eq_ok, u32_run,
        List.append_assoc]
      exact ⟨x, _, rfl, y, rest, rfl, rfl, rfl⟩
    | pointerButton button pressed x y =>
      simp only [kindByte, fieldBytes, readFields, readBool, run_bind_eq_ok, run_pure_eq_ok,
        readFlag_bool_run, u8_run, u32_run, run_lift_eq_ok, GuiPointerButton.decode_eq_ok,
        List.append_assoc, List.cons_append]
      exact ⟨_, _, rfl, button, _, ⟨rfl, rfl⟩, pressed, _, rfl, x, _, rfl, y, rest, rfl, rfl, rfl⟩
    | pointerWheel delta horizontal x y =>
      simp only [kindByte, fieldBytes, readFields, readBool, run_bind_eq_ok, run_pure_eq_ok,
        readFlag_bool_run, i16_run, u32_run, List.append_assoc, List.cons_append]
      exact ⟨delta, _, rfl, horizontal, _, rfl, x, _, rfl, y, rest, rfl, rfl, rfl⟩

theorem decode_eq_ok {payload : Bytes} {event : GuiInputEvent} :
    decode payload = .ok event ↔ event.encode = .ok payload := by
  simp only [decode, of_eq_ok, run_bind_eq_ok, u8_run, readFields_run, finish_run, run_lift_eq_ok,
    run_pure_eq_ok, encode_eq_ok]
  constructor
  · rintro ⟨_, kind, _, rfl, found, _, ⟨rfl, rfl⟩, _, _, ⟨rfl, rfl⟩, _, _, ⟨⟨hvalid, -⟩, rfl⟩,
      rfl, rfl⟩
    exact ⟨hvalid, by simp⟩
  · rintro ⟨hvalid, rfl⟩
    exact ⟨[], _, _, rfl, event, [], ⟨rfl, by simp⟩, (), [], ⟨rfl, rfl⟩, _, [],
      ⟨⟨hvalid, rfl⟩, rfl⟩, rfl, rfl⟩

end GuiInputEvent

/-! ## One payload per GUI message -/

/-- Messages are read back, payloads are spelled one way, and what is decoded is `valid`. -/
def CanonicalValid {α : Type} (valid : α → Prop) (encode : α → Except ProtocolError Bytes)
    (decode : Bytes → Except ProtocolError α) : Prop :=
  Canonical (fun _ => True) encode decode ∧
    ∀ payload message, decode payload = .ok message → valid message

theorem canonicalValid_of_iff {α : Type} {valid : α → Prop}
    {encode : α → Except ProtocolError Bytes} {decode : Bytes → Except ProtocolError α}
    (h : ∀ {payload message}, decode payload = .ok message ↔ encode message = .ok payload)
    (hvalid : ∀ {message payload}, encode message = .ok payload → valid message) :
    CanonicalValid valid encode decode := by
  refine ⟨canonical_of_decode_iff h, ?_⟩
  intro payload message hdecode
  exact hvalid (h.mp hdecode)

/-- Every GUI message has one payload, every accepted payload is the payload of its message, and
    the message meets its own bounds. -/
theorem gui_messages_canonical (unicode : UnicodeTables) :
    CanonicalValid (GuiStartRequest.Valid unicode) (GuiStartRequest.encode unicode)
      (GuiStartRequest.decode unicode) ∧
    CanonicalValid GuiWindowReady.Valid GuiWindowReady.encode GuiWindowReady.decode ∧
    CanonicalValid ValidDamage GuiWindowDamage.encode GuiWindowDamage.decode ∧
    CanonicalValid GuiWindowDragHint.Valid GuiWindowDragHint.encode GuiWindowDragHint.decode ∧
    CanonicalValid (fun resize => ValidDimensions resize.width.toNat resize.height.toNat)
      GuiWindowResize.encode GuiWindowResize.decode ∧
    CanonicalValid GuiIconRequest.Valid GuiIconRequest.encode GuiIconRequest.decode ∧
    CanonicalValid GuiInputEvent.Valid GuiInputEvent.encode GuiInputEvent.decode := by
  refine ⟨?start, ?ready, ?damage, ?drag, ?resize, ?icon, ?input⟩
  case start =>
    exact canonicalValid_of_iff GuiStartRequest.decode_eq_ok GuiStartRequest.valid_of_encode
  case ready =>
    exact canonicalValid_of_iff GuiWindowReady.decode_eq_ok
      fun h => (GuiWindowReady.encode_eq_ok.mp h).1
  case damage =>
    exact canonicalValid_of_iff GuiWindowDamage.decode_eq_ok
      fun h => (GuiWindowDamage.encode_eq_ok.mp h).1
  case drag =>
    exact canonicalValid_of_iff GuiWindowDragHint.decode_eq_ok
      fun h => (GuiWindowDragHint.encode_eq_ok.mp h).1
  case resize =>
    exact canonicalValid_of_iff GuiWindowResize.decode_eq_ok
      fun h => (GuiWindowResize.encode_eq_ok.mp h).1
  case icon =>
    exact canonicalValid_of_iff GuiIconRequest.decode_eq_ok
      fun h => (GuiIconRequest.encode_eq_ok.mp h).1
  case input =>
    exact canonicalValid_of_iff GuiInputEvent.decode_eq_ok
      fun h => (GuiInputEvent.encode_eq_ok.mp h).1

end Lsw.Protocol
