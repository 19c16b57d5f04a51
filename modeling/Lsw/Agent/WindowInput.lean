import Lsw.Gui.WindowState
import Lsw.Lib.Edges
import Lsw.Lib.Traced
import Mathlib.Data.List.Nodup

/-!
# Input for a Captured Window

`WindowHandle::input` turns an input event of the host into native input, unless the captured window
is not the target that Windows would give it to.  It records the keys and the buttons that it has
pressed, so that it releases what it has pressed and nothing else.

What Windows answers while an event is handled is an input, `Desktop`.  The native input that was sent
is part of the state: what it leaves pressed is what is held in the guest.
-/

namespace Lsw.Agent

open Lsw.Lib Protocol

/-! ## Native input -/

/-- `InjectedKey`. -/
structure InjectedKey where
  virtualKey : UInt16
  scanCode : UInt16
  extended : Bool
  deriving DecidableEq, Repr

/-- The flags of a mouse event that are sent. -/
inductive MouseFlag where
  | move
  | leftDown
  | leftUp
  | rightDown
  | rightUp
  | middleDown
  | middleUp
  | xDown
  | xUp
  | wheel
  | hwheel
  deriving DecidableEq, Repr

/-- `INPUT`, by what decides which key or button it presses or releases. -/
inductive NativeInput where
  | keyboard (virtualKey scanCode : UInt16) (extended keyUp : Bool)
  | mouse (flag : MouseFlag) (data : UInt32)
  deriving DecidableEq, Repr

/-- A key or a button. -/
inductive InjectedItem where
  | key (key : InjectedKey)
  | button (button : GuiPointerButton)
  deriving DecidableEq, Repr

/-- The edge that Windows sees in an input: the data of an event of the extra buttons tells which of
    them it is. -/
def NativeInput.edge : NativeInput → Option (Edge InjectedItem)
  | .keyboard virtualKey scanCode extended keyUp =>
    some ⟨.key ⟨virtualKey, scanCode, extended⟩, !keyUp⟩
  | .mouse .leftDown _ => some ⟨.button .left, true⟩
  | .mouse .leftUp _ => some ⟨.button .left, false⟩
  | .mouse .rightDown _ => some ⟨.button .right, true⟩
  | .mouse .rightUp _ => some ⟨.button .right, false⟩
  | .mouse .middleDown _ => some ⟨.button .middle, true⟩
  | .mouse .middleUp _ => some ⟨.button .middle, false⟩
  | .mouse .xDown data =>
    if data = 1 then some ⟨.button .back, true⟩
    else if data = 2 then some ⟨.button .forward, true⟩ else none
  | .mouse .xUp data =>
    if data = 1 then some ⟨.button .back, false⟩
    else if data = 2 then some ⟨.button .forward, false⟩ else none
  | .mouse .move _ | .mouse .wheel _ | .mouse .hwheel _ => none

/-! ## The record -/

/-- `ReleasedVirtualKey`. -/
structure ReleasedVirtualKey where
  virtualKey : UInt16
  releasedAt : Nat
  deriving DecidableEq, Repr

/-- `InjectedInputState`: no key is recorded twice. -/
structure InjectedInputState where
  keys : List InjectedKey
  buttons : Vector Bool 5
  recentReleases : List ReleasedVirtualKey
  keys_nodup : keys.Nodup
  deriving DecidableEq

/-- `pointer_button_index`. -/
def pointerButtonIndex : GuiPointerButton → Fin 5
  | .left => 0
  | .middle => 1
  | .right => 2
  | .back => 3
  | .forward => 4

/-- `pointer_button_virtual_key`. -/
def pointerButtonVirtualKey : GuiPointerButton → UInt16
  | .left => 1
  | .right => 2
  | .middle => 4
  | .back => 5
  | .forward => 6

namespace InjectedInputState

/-- `InjectedInputState::default`. -/
def default : InjectedInputState where
  keys := []
  buttons := .replicate 5 false
  recentReleases := []
  keys_nodup := .nil

/-- `InjectedInputState::note_press`. -/
def notePress (virtualKey : UInt16) (state : InjectedInputState) : InjectedInputState :=
  { state with
    recentReleases := state.recentReleases.filter fun release => release.virtualKey ≠ virtualKey }

/-- `InjectedInputState::note_release`. -/
def noteRelease (now : Nat) (virtualKey : UInt16) (state : InjectedInputState) :
    InjectedInputState :=
  if virtualKey = 0 then state
  else
    let state := state.notePress virtualKey
    { state with recentReleases := state.recentReleases ++ [⟨virtualKey, now⟩] }

/-- `if !self.injected.keys.contains(&key) { self.injected.keys.push(key); }`. -/
def addKey (key : InjectedKey) (state : InjectedInputState) : InjectedInputState :=
  if h : key ∈ state.keys then state
  else { state with
    keys := state.keys ++ [key]
    keys_nodup := List.concat_eq_append ▸ List.Nodup.concat h state.keys_nodup }

/-- `self.injected.keys.remove(index)`. -/
def removeKeyAt (index : Nat) (state : InjectedInputState) : InjectedInputState :=
  { state with
    keys := state.keys.eraseIdx index
    keys_nodup := state.keys_nodup.sublist (List.eraseIdx_sublist _ _) }

/-- `self.injected.keys.retain(|candidate| *candidate != key)`. -/
def retainOthers (key : InjectedKey) (state : InjectedInputState) : InjectedInputState :=
  { state with
    keys := state.keys.filter (· ≠ key)
    keys_nodup := state.keys_nodup.filter _ }

/-- `self.injected.buttons[index] = pressed`. -/
def setButton (button : GuiPointerButton) (pressed : Bool) (state : InjectedInputState) :
    InjectedInputState :=
  { state with buttons := state.buttons.set (pointerButtonIndex button) pressed }

/-- The button is recorded as pressed. -/
def button (state : InjectedInputState) (button : GuiPointerButton) : Bool :=
  state.buttons[pointerButtonIndex button]

/-- What the record says of a key or a button. -/
def recorded (state : InjectedInputState) : InjectedItem → Bool
  | .key key => decide (key ∈ state.keys)
  | .button button => state.button button

end InjectedInputState

/-! ## Handling an event -/

/-- `windows::core::Error`. -/
structure WindowsError where
  code : UInt32
  message : String
  deriving DecidableEq, Repr

abbrev WindowsResult (α : Type) := Except WindowsError α

/-- `INVALID_ARGUMENT`. -/
def invalidArgument : UInt32 := 0x80070057

/-- `NonClientHitAction`. -/
inductive NonClientHitAction where
  | forward (action : GuiWindowAction)
  | maximizeOrRestore
  deriving DecidableEq, Repr

/-- A place on the screen, and what is to be known of the window there. -/
structure PointerTarget where
  screenX : Int32
  screenY : Int32
  /-- `is_main_window_target`. -/
  isMainWindow : Bool
  deriving DecidableEq, Repr

/-- What Windows answers while an event is handled.  A call that is made several times is numbered
    in the order of the source; a key is tapped at most once. -/
structure Desktop where
  validateIdentity : Nat → WindowsResult Unit
  foregroundBelongsToCapture : Nat → WindowsResult Bool
  -- `activate_and_verify`
  isWindow : Bool
  foregroundActivated : Nat → WindowsResult Bool
  dismissibleWindowsShellSurface : Bool
  sendTap : UInt16 → Bool → WindowsResult Unit
  -- `place_pointer_on_target`
  captureToScreen : WindowsResult (Option (Int32 × Int32))
  setCursorPos : Nat → WindowsResult Unit
  isMainWindow : Nat → Bool
  windowBelongsToCapture : Nat → WindowsResult Bool
  -- the pointer
  nonClientAction : Option NonClientHitAction
  pointerTargetIsValid : Nat → WindowsResult Bool
  pointerTargetBelongsToCapture : Nat → WindowsResult Bool
  absoluteVirtualDesktopPoint : WindowsResult Unit
  isZoomed : Bool
  post : WindowsResult Unit
  sendInput : List NativeInput → WindowsResult Unit
  now : Nat

/-- Every `SendInput` succeeds, those of taps apart. -/
def Desktop.SendsInput (desktop : Desktop) : Prop := ∀ inputs, desktop.sendInput inputs = .ok ()

/-- `GuiInputOutcome`. -/
inductive GuiInputOutcome where
  | none
  | action (action : GuiWindowAction)
  | dragHint (hint : GuiWindowDragHint)
  deriving DecidableEq, Repr

/-- `WindowHandle`, by its record of the input it has injected, and the native input sent for it. -/
structure WindowHandle where
  injected : InjectedInputState
  sent : List NativeInput
  deriving DecidableEq

/-- A part of the handling of an event. -/
abbrev Handling := Traced WindowHandle Empty WindowsError

namespace WindowHandle

/-- A handle that has sent nothing. -/
def new : WindowHandle := { injected := .default, sent := [] }

/-- The edges that the guest has seen. -/
def edges (window : WindowHandle) : List (Edge InjectedItem) := window.sent.filterMap (·.edge)

/-- What is held in the guest. -/
def held (window : WindowHandle) : Set InjectedItem := {item | holds window.edges item = true}

/-- What is recorded. -/
def recorded (window : WindowHandle) : Set InjectedItem :=
  {item | window.injected.recorded item = true}

/-- `send_native_inputs`, with the change of the record that follows it: nothing is injected when it
    fails. -/
def inject (outcome : WindowsResult Unit) (inputs : List NativeInput)
    (f : InjectedInputState → InjectedInputState) : Handling Unit := do
  Traced.ofExcept outcome
  Traced.modify fun window => { window with sent := window.sent ++ inputs }
  Traced.modify fun window => { window with injected := f window.injected }

/-- The input of `send_keyboard`. -/
def keyboard (key : InjectedKey) (pressed : Bool) : NativeInput :=
  .keyboard key.virtualKey key.scanCode key.extended !pressed

/-- `send_balanced_key_tap`: the release is sent whatever becomes of the press. -/
def sendBalancedKeyTap (desktop : Desktop) (virtualKey : UInt16) : Handling Unit := do
  let key : InjectedKey := ⟨virtualKey, 0, false⟩
  let pressed ← Traced.attempt (fun _ => false)
    (inject (desktop.sendTap virtualKey true) [keyboard key true] id)
  let released ← Traced.attempt (fun _ => false)
    (inject (desktop.sendTap virtualKey false) [keyboard key false] id)
  Traced.ofExcept pressed
  Traced.ofExcept released

/-- `VK_MENU`. -/
def vkMenu : UInt16 := 0x12

/-- `VK_ESCAPE`. -/
def vkEscape : UInt16 := 0x1b

/-- The last loop of `activate_and_verify`. -/
def retryActivation (desktop : Desktop) (attempt : Nat) : Nat → Handling Bool
  | 0 => pure false
  | left + 1 => do
    if ← Traced.ofExcept (desktop.foregroundActivated attempt) then return true
    else retryActivation desktop (attempt + 1) left

/-- `activate_and_verify`. -/
def activateAndVerify (desktop : Desktop) : Handling Bool := do
  if desktop.isWindow = false then
    Traced.fail ⟨invalidArgument, "captured GUI window is no longer available"⟩
  else if ← Traced.ofExcept (desktop.foregroundActivated 0) then return true
  -- `BringWindowToTop` and `SetForegroundWindow`
  else if ← Traced.ofExcept (desktop.foregroundActivated 1) then return true
  -- `activate_via_joined_input_queues`
  else if ← Traced.ofExcept (desktop.foregroundActivated 2) then return true
  else
    sendBalancedKeyTap desktop vkMenu
    if ← Traced.ofExcept (desktop.foregroundActivated 3) then return true
    else if desktop.dismissibleWindowsShellSurface = false then return false
    else
      sendBalancedKeyTap desktop vkEscape
      retryActivation desktop 4 10

/-- `place_pointer_on_target`. -/
def placePointerOnTarget (desktop : Desktop) : Handling (Option PointerTarget) := do
  Traced.ofExcept (desktop.validateIdentity 10)
  match ← Traced.ofExcept desktop.captureToScreen with
  | none => return none
  | some (screenX, screenY) =>
    Traced.ofExcept (desktop.validateIdentity 11)
    Traced.ofExcept (desktop.setCursorPos 0)
    let belongs ← Traced.ofExcept (desktop.windowBelongsToCapture 0)
    let placed ← if belongs = false then pure false
      else Traced.ofExcept (desktop.foregroundBelongsToCapture 10)
    if placed then return some ⟨screenX, screenY, desktop.isMainWindow 0⟩
    else
      let _ ← activateAndVerify desktop
      Traced.ofExcept (desktop.validateIdentity 12)
      Traced.ofExcept (desktop.setCursorPos 1)
      Traced.ofExcept (desktop.validateIdentity 13)
      let belongs ← Traced.ofExcept (desktop.windowBelongsToCapture 1)
      return if belongs then some ⟨screenX, screenY, desktop.isMainWindow 1⟩ else none

/-- The inputs of `send_pointer_down_at`. -/
def pointerDownAt (button : MouseFlag) (data : UInt32) : List NativeInput :=
  [.mouse .move 0, .mouse button data]

/-- The flags and the data of a button in `input`. -/
def buttonFlags : GuiPointerButton → MouseFlag × MouseFlag × UInt32
  | .left => (.leftDown, .leftUp, 0)
  | .right => (.rightDown, .rightUp, 0)
  | .middle => (.middleDown, .middleUp, 0)
  | .back => (.xDown, .xUp, 1)
  | .forward => (.xDown, .xUp, 2)

/-- The flag and the data of a button in `release_injected_input`. -/
def releaseFlags : GuiPointerButton → MouseFlag × UInt32
  | .left => (.leftUp, 0)
  | .right => (.rightUp, 0)
  | .middle => (.middleUp, 0)
  | .back => (.xUp, 1)
  | .forward => (.xUp, 2)

section Events

variable (desktop : Desktop)

/-- The loop of `release_injected_input` over the keys, with the first error so far. -/
def releaseKeys (firstError : Option WindowsError) :
    List InjectedKey → Handling (Option WindowsError)
  | [] => pure firstError
  | key :: keys => do
    let input := keyboard key false
    match ← Traced.attempt (fun _ => false) (inject (desktop.sendInput [input]) [input]
        fun state => (state.retainOthers key).noteRelease desktop.now key.virtualKey) with
    | .ok () => releaseKeys firstError keys
    | .error error => releaseKeys (firstError <|> some error) keys

/-- The loop of `release_injected_input` over the buttons. -/
def releaseButtons (firstError : Option WindowsError) :
    List GuiPointerButton → Handling (Option WindowsError)
  | [] => pure firstError
  | button :: buttons => do
    if (← Traced.read fun window => window.injected.button button) = false then
      releaseButtons firstError buttons
    else
      let input : NativeInput := .mouse (releaseFlags button).1 (releaseFlags button).2
      match ← Traced.attempt (fun _ => false) (inject (desktop.sendInput [input]) [input]
          fun state => (state.setButton button false).noteRelease desktop.now
            (pointerButtonVirtualKey button)) with
      | .ok () => releaseButtons firstError buttons
      | .error error => releaseButtons (firstError <|> some error) buttons

/-- `release_injected_input`. -/
def releaseInjectedInput : Handling Unit := do
  let keys ← Traced.read fun window => window.injected.keys
  let firstError ← releaseKeys desktop none keys.reverse
  let firstError ← releaseButtons desktop firstError [.left, .middle, .right, .back, .forward]
  match firstError with
  | some error => Traced.fail error
  | none => pure ()

/-- `GuiInputEvent::Focus`. -/
def inputFocus (focused : Bool) : Handling GuiInputOutcome := do
  if focused then
    Traced.ofExcept (desktop.validateIdentity 0)
    let _ ← activateAndVerify desktop
    Traced.ofExcept (desktop.validateIdentity 1)
    return .none
  else
    releaseInjectedInput desktop
    return .none

/-- A press of `GuiInputEvent::Key`. -/
def pressKey (key : InjectedKey) : Handling GuiInputOutcome := do
  Traced.ofExcept (desktop.validateIdentity 0)
  if (← activateAndVerify desktop) = false then return .none
  else
    Traced.ofExcept (desktop.validateIdentity 1)
    if (← Traced.ofExcept (desktop.foregroundBelongsToCapture 0)) = false then return .none
    else
      inject (desktop.sendInput [keyboard key true]) [keyboard key true]
        fun state => (state.notePress key.virtualKey).addKey key
      return .none

/-- A release of `GuiInputEvent::Key`. -/
def releaseKey (key : InjectedKey) : Handling GuiInputOutcome := do
  match ← Traced.read fun window => window.injected.keys.findIdx? (· == key) with
  | some index =>
    inject (desktop.sendInput [keyboard key false]) [keyboard key false]
      fun state => (state.removeKeyAt index).noteRelease desktop.now key.virtualKey
    return .none
  | none => return .none

/-- The drag hint for `GuiInputEvent::PointerMove`. -/
def pointerMove (x y : UInt32) : Handling GuiInputOutcome := do
  match ← placePointerOnTarget desktop with
  | none => return .dragHint ⟨x, y, none⟩
  | some target =>
    if target.isMainWindow = false then return .dragHint ⟨x, y, none⟩
    else if (← Traced.ofExcept (desktop.foregroundBelongsToCapture 0)) = false then
      return .dragHint ⟨x, y, none⟩
    else if (← Traced.ofExcept (desktop.pointerTargetIsValid 0)) = false then
      return .dragHint ⟨x, y, none⟩
    else
      Traced.ofExcept (desktop.validateIdentity 0)
      match desktop.nonClientAction with
      | some (.forward action) =>
        return .dragHint ⟨x, y, if action.isDrag then some action else none⟩
      | _ => return .dragHint ⟨x, y, none⟩

/-- `close`. -/
def close : Handling Unit := do
  Traced.ofExcept (desktop.validateIdentity 1)
  Traced.ofExcept desktop.post

/-- `request_maximize_transition`. -/
def requestMaximizeTransition : Handling GuiWindowAction := do
  Traced.ofExcept (desktop.validateIdentity 1)
  let action := (Gui.maximizeTransition desktop.isZoomed).1
  Traced.ofExcept (desktop.validateIdentity 2)
  Traced.ofExcept desktop.post
  return action

/-- A press on a part of the window frame, which is not injected. -/
def pressNonClient (hit : NonClientHitAction) : Handling GuiInputOutcome := do
  Traced.ofExcept (desktop.validateIdentity 0)
  if (← Traced.ofExcept (desktop.pointerTargetIsValid 0)) = false then return .none
  else
    match hit with
    | .maximizeOrRestore => return .action (← requestMaximizeTransition desktop)
    | .forward .close =>
      close desktop
      return .none
    | .forward action => return .action action

/-- The checks after a button has gone down. -/
def accepted : WindowsResult Bool := do
  desktop.validateIdentity 4
  if ← desktop.foregroundBelongsToCapture 1 then desktop.pointerTargetBelongsToCapture 2
  else return false

/-- The release of a button, by `input`. -/
def injectButtonUp (button : GuiPointerButton) : Handling Unit :=
  let input : NativeInput := .mouse (buttonFlags button).2.1 (buttonFlags button).2.2
  inject (desktop.sendInput [input]) [input]
    fun state => (state.setButton button false).noteRelease desktop.now
      (pointerButtonVirtualKey button)

/-- A press of a button that is injected: when the checks after it fail it is taken back. -/
def pressClient (button : GuiPointerButton) : Handling GuiInputOutcome := do
  if (← Traced.ofExcept (desktop.pointerTargetBelongsToCapture 0)) = false then return .none
  else
    Traced.ofExcept (desktop.validateIdentity 3)
    if (← Traced.ofExcept (desktop.pointerTargetBelongsToCapture 1)) = false then return .none
    else
      let inputs := pointerDownAt (buttonFlags button).1 (buttonFlags button).2.2
      Traced.ofExcept desktop.absoluteVirtualDesktopPoint
      inject (desktop.sendInput inputs) inputs
        fun state => (state.notePress (pointerButtonVirtualKey button)).setButton button true
      match accepted desktop with
      | .ok true => return .none
      | .ok false =>
        injectButtonUp desktop button
        Traced.fail ⟨invalidArgument,
          "Windows rejected focus for the exact captured GUI pointer target"⟩
      | .error error =>
        let _ ← Traced.attempt (fun _ => false) (injectButtonUp desktop button)
        Traced.fail error

/-- A press of `GuiInputEvent::PointerButton`. -/
def pressButton (button : GuiPointerButton) : Handling GuiInputOutcome := do
  match ← placePointerOnTarget desktop with
  | none => return .none
  | some target =>
    let targetWasForeground ← Traced.ofExcept (desktop.foregroundBelongsToCapture 0)
    if button = .left ∧ targetWasForeground = true ∧ target.isMainWindow = true then
      match desktop.nonClientAction with
      | some hit => pressNonClient desktop hit
      | none => pressClient desktop button
    else pressClient desktop button

/-- A release of `GuiInputEvent::PointerButton`: the pointer is moved when it can be. -/
def releaseButton (button : GuiPointerButton) : Handling GuiInputOutcome := do
  if (← Traced.read fun window => window.injected.button button) = false then return .none
  else
    let _ ← Traced.attempt (fun _ => false) (placePointerOnTarget desktop)
    injectButtonUp desktop button
    return .none

/-- `GuiInputEvent::PointerWheel`. -/
def pointerWheel (delta : Int16) (horizontal : Bool) : Handling GuiInputOutcome := do
  match ← placePointerOnTarget desktop with
  | none => return .none
  | some _ =>
    if (← Traced.ofExcept (desktop.pointerTargetIsValid 0)) = false then return .none
    else
      Traced.ofExcept (desktop.validateIdentity 0)
      if (← Traced.ofExcept (desktop.pointerTargetIsValid 1)) = false then return .none
      else
        let input : NativeInput :=
          .mouse (if horizontal then .hwheel else .wheel) delta.toInt32.toUInt32
        inject (desktop.sendInput [input]) [input] id
        return .none

/-- `WindowHandle::input`. -/
def input : GuiInputEvent → Handling GuiInputOutcome
  | .focus focused => inputFocus desktop focused
  | .key virtualKey scanCode pressed extended =>
    let key : InjectedKey := ⟨virtualKey, scanCode, extended⟩
    if pressed then pressKey desktop key else releaseKey desktop key
  | .pointerMove x y => pointerMove desktop x y
  | .pointerButton button pressed _ _ =>
    if pressed then pressButton desktop button else releaseButton desktop button
  | .pointerWheel delta horizontal _ _ => pointerWheel desktop delta horizontal

end Events

end WindowHandle

end Lsw.Agent
