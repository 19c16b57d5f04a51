import Lsw.Protocol.GuiMessages
import Mathlib.Data.List.Nodup

/-!
# What the Presenter Forwards

The presenter follows the state of its own window and tells the guest when the user maximizes or
restores it, unless the change is one the guest asked for.  It also remembers which keys and
pointer buttons it has forwarded as pressed, so that it can release them when the window loses
its focus, when it is closed or when nothing was forwarded for a while.
-/

namespace Lsw.Presenter

open Protocol

/-! ## The state of the host window -/

/-- `HostWindowState`. -/
structure HostWindowState where
  observedMaximized : Bool
  expectedFromGuest : Option Bool
  deriving DecidableEq, Repr

namespace HostWindowState

/-- `HostWindowState::new`. -/
def new (observedMaximized : Bool) : HostWindowState :=
  { observedMaximized, expectedFromGuest := none }

/-- `HostWindowState::expect`. -/
def expect (maximized : Bool) (state : HostWindowState) : HostWindowState :=
  { state with expectedFromGuest := some maximized }

/-- `HostWindowState::observe`. -/
def observe (maximized : Bool) (state : HostWindowState) :
    Option GuiWindowAction × HostWindowState :=
  if maximized = state.observedMaximized then
    (none, state)
  else if state.expectedFromGuest = some maximized then
    (none, { observedMaximized := maximized, expectedFromGuest := none })
  else
    (some (if maximized then .maximize else .restore),
      { observedMaximized := maximized, expectedFromGuest := none })

end HostWindowState

/-! ## Forwarded keys and buttons -/

/-- `KeyCode`: the physical keys with a Windows key, and the others. -/
inductive KeyCode where
  /-- `Digit0` to `Digit9`. -/
  | digit (n : Fin 10)
  /-- `KeyA` to `KeyZ`. -/
  | letter (n : Fin 26)
  /-- `F1` to `F24`, counted from zero. -/
  | function (n : Fin 24)
  /-- `Numpad0` to `Numpad9`. -/
  | numpad (n : Fin 10)
  | backspace | tab | enter | numpadEnter | pause | capsLock | escape | space
  | pageUp | pageDown | end | home | arrowLeft | arrowUp | arrowRight | arrowDown
  | insert | delete | superLeft | superRight | contextMenu
  | numpadMultiply | numpadAdd | numpadSubtract | numpadDecimal | numpadDivide
  | numLock | scrollLock
  | shiftLeft | shiftRight | controlLeft | controlRight | altLeft | altRight
  | semicolon | equal | comma | minus | period | slash | backquote
  | bracketLeft | backslash | bracketRight | quote
  | other

namespace KeyCode

/-- The virtual key of `windows_key`. -/
def simple : KeyCode → Option UInt16
  | .digit n => some (.ofNat (0x30 + n))
  | .letter n => some (.ofNat (0x41 + n))
  | .function n => some (.ofNat (0x70 + n))
  | .numpad n => some (.ofNat (0x60 + n))
  | .backspace => some 0x08
  | .tab => some 0x09
  | .enter | .numpadEnter => some 0x0d
  | .pause => some 0x13
  | .capsLock => some 0x14
  | .escape => some 0x1b
  | .space => some 0x20
  | .pageUp => some 0x21
  | .pageDown => some 0x22
  | .end => some 0x23
  | .home => some 0x24
  | .arrowLeft => some 0x25
  | .arrowUp => some 0x26
  | .arrowRight => some 0x27
  | .arrowDown => some 0x28
  | .insert => some 0x2d
  | .delete => some 0x2e
  | .superLeft => some 0x5b
  | .superRight => some 0x5c
  | .contextMenu => some 0x5d
  | .numpadMultiply => some 0x6a
  | .numpadAdd => some 0x6b
  | .numpadSubtract => some 0x6d
  | .numpadDecimal => some 0x6e
  | .numpadDivide => some 0x6f
  | .numLock => some 0x90
  | .scrollLock => some 0x91
  | .shiftLeft => some 0xa0
  | .shiftRight => some 0xa1
  | .controlLeft => some 0xa2
  | .controlRight => some 0xa3
  | .altLeft => some 0xa4
  | .altRight => some 0xa5
  | .semicolon => some 0xba
  | .equal => some 0xbb
  | .comma => some 0xbc
  | .minus => some 0xbd
  | .period => some 0xbe
  | .slash => some 0xbf
  | .backquote => some 0xc0
  | .bracketLeft => some 0xdb
  | .backslash => some 0xdc
  | .bracketRight => some 0xdd
  | .quote => some 0xde
  | .other => none

/-- The extended flag of `windows_key`. -/
def extended : KeyCode → Bool
  | .altRight | .controlRight | .insert | .delete | .home | .end | .pageUp | .pageDown
  | .arrowLeft | .arrowRight | .arrowUp | .arrowDown | .numpadDivide | .numpadEnter
  | .superLeft | .superRight | .contextMenu => true
  | _ => false

end KeyCode

/-- `windows_key`. -/
def windowsKey (key : KeyCode) : Option (UInt16 × Bool) :=
  key.simple.map fun simple => (simple, key.extended)

/-- `ForwardedKey`. -/
structure ForwardedKey where
  virtualKey : UInt16
  extended : Bool
  deriving DecidableEq, Repr

/-- `key_input`. -/
def keyInput (key : ForwardedKey) (pressed : Bool) : GuiInputEvent :=
  .key key.virtualKey 0 pressed key.extended

/-- `MouseButton`. -/
inductive MouseButton where
  | left | right | middle | back | forward
  | other (code : UInt16)
  deriving DecidableEq, Repr

/-- `guest_pointer_button`. -/
def guestPointerButton : MouseButton → Option (Nat × GuiPointerButton)
  | .left => some (0, .left)
  | .middle => some (1, .middle)
  | .right => some (2, .right)
  | _ => none

/-- `FORWARDED_INPUT_IDLE_LEASE`, in milliseconds. -/
def forwardedInputIdleLease : Nat := 2000

/-- `ForwardedInputState`: no key is recorded twice. -/
structure ForwardedInputState where
  pressedKeys : List ForwardedKey
  pressedButtons : Vector Bool 3
  leaseDeadline : Option Nat
  pressedKeys_nodup : pressedKeys.Nodup
  deriving DecidableEq

namespace ForwardedInputState

/-- `ForwardedInputState::default`. -/
def default : ForwardedInputState where
  pressedKeys := []
  pressedButtons := .replicate 3 false
  leaseDeadline := none
  pressedKeys_nodup := .nil

/-- `ForwardedInputState::has_held_input`. -/
def hasHeldInput (state : ForwardedInputState) : Bool :=
  !state.pressedKeys.isEmpty || state.pressedButtons.any id

/-- `ForwardedInputState::note_activity`. -/
def noteActivity (now : Nat) (state : ForwardedInputState) : ForwardedInputState :=
  { state with
    leaseDeadline := if state.hasHeldInput then some (now + forwardedInputIdleLease) else none }

/-- `ForwardedInputState::lease_expired`. -/
def leaseExpired (now : Nat) (state : ForwardedInputState) : Bool :=
  state.leaseDeadline.any fun deadline => now ≥ deadline

/-- `self.pressed_keys.push(forwarded)`, unless it is there. -/
def addKey (key : ForwardedKey) (state : ForwardedInputState) : ForwardedInputState :=
  if h : key ∈ state.pressedKeys then state
  else { state with
    pressedKeys := state.pressedKeys ++ [key]
    pressedKeys_nodup := List.concat_eq_append ▸ List.Nodup.concat h state.pressedKeys_nodup }

/-- `self.pressed_keys.remove(position)`. -/
def removeKeyAt (position : Nat) (state : ForwardedInputState) : ForwardedInputState :=
  { state with
    pressedKeys := state.pressedKeys.eraseIdx position
    pressedKeys_nodup := state.pressedKeys_nodup.sublist (List.eraseIdx_sublist _ _) }

/-- `ForwardedInputState::key_event`. -/
def keyEvent (key : KeyCode) (pressed : Bool) (state : ForwardedInputState) :
    Option GuiInputEvent × ForwardedInputState :=
  match windowsKey key with
  | none => (none, state)
  | some (virtualKey, extended) =>
    let forwarded : ForwardedKey := { virtualKey, extended }
    if pressed then (some (keyInput forwarded true), state.addKey forwarded)
    else
      match state.pressedKeys.findIdx? (· == forwarded) with
      | none => (none, state)
      | some position => (some (keyInput forwarded false), state.removeKeyAt position)

/-- `ForwardedInputState::pointer_button_event`. -/
def pointerButtonEvent (index : Nat) (button : GuiPointerButton) (pressed : Bool) (x y : UInt32)
    (state : ForwardedInputState) : Option GuiInputEvent × ForwardedInputState :=
  if h : index < 3 then
    if state.pressedButtons[index] = pressed then (none, state)
    else
      (some (.pointerButton button pressed x y),
        { state with pressedButtons := state.pressedButtons.set index pressed })
  else (none, state)

/-- The loop of `release_events` over the buttons. -/
def releaseButtons (x y : UInt32) : List (Fin 3 × GuiPointerButton) → ForwardedInputState →
    List GuiInputEvent × ForwardedInputState
  | [], state => ([], state)
  | (index, button) :: buttons, state =>
    if state.pressedButtons[index] = true then
      let (events, released) := releaseButtons x y buttons
        { state with pressedButtons := state.pressedButtons.set index false }
      (.pointerButton button false x y :: events, released)
    else releaseButtons x y buttons state

/-- `ForwardedInputState::release_events`. -/
def releaseEvents (pointer : Option (UInt32 × UInt32)) (state : ForwardedInputState) :
    List GuiInputEvent × ForwardedInputState :=
  let keys := state.pressedKeys.reverse.map (keyInput · false)
  let drained : ForwardedInputState :=
    { state with leaseDeadline := none, pressedKeys := [], pressedKeys_nodup := .nil }
  let (x, y) := pointer.getD (0, 0)
  let (buttons, released) :=
    drained.releaseButtons x y [(0, .left), (1, .middle), (2, .right)]
  (keys ++ buttons, released)

end ForwardedInputState

end Lsw.Presenter
