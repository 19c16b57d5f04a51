import Lsw.Lib.Run
import Lsw.Presenter.Input
import Mathlib.Data.List.Induction

/-!
# Maximizing on Both Sides

A seamless window is maximized or not on the host and in the guest.  Either side may change: the
guest through its own caption buttons, the host through the compositor.  Each change is sent to
the other side as the state to take, over a channel that keeps its order, and the host suppresses
the echo of a change the guest asked for by remembering what it expects.

Neither side orders its own change against one that is on its way to it, so the two may cross.
`Settles` says where a side ends up when its channel drains: at the last action sent to it, or
where it is.  Deliveries change neither end; a toggle makes both ends equal unless it crosses a
contrary action.
-/

namespace Lsw.Gui

open Lib Protocol Presenter

/-! ## The two parties -/

/-- `maximize_transition`: the action, and whether the command maximizes. -/
def maximizeTransition (isZoomed : Bool) : GuiWindowAction × Bool :=
  if isZoomed then (.restore, false) else (.maximize, true)

/-- `initial_window_state_action`. -/
def initialWindowStateAction (isMaximized : Bool) : Option GuiWindowAction :=
  if isMaximized then some .maximize else none

/-- The host window, the guest window and the actions under way. -/
structure WindowPair where
  hostMaximized : Bool
  hostState : HostWindowState
  guestMaximized : Bool
  toHost : List GuiWindowAction
  toGuest : List GuiWindowAction
  deriving DecidableEq, Repr

namespace WindowPair

/-- A new presenter for a guest window: `HostWindowState::new` on the host, and the guest's
    action when it is maximized already. -/
def opened (guestMaximized : Bool) : WindowPair where
  hostMaximized := false
  hostState := .new false
  guestMaximized
  toHost := (initialWindowStateAction guestMaximized).toList
  toGuest := []

/-- The host window has a state, and the presenter observes it. -/
def observe (maximized : Bool) (s : WindowPair) : WindowPair :=
  let (action, hostState) := s.hostState.observe maximized
  { s with hostMaximized := maximized, hostState, toGuest := s.toGuest ++ action.toList }

/-- The host's handling of `GuiWindowEvent::Action`: `expect`, `set_maximized`, and the `Resized`
    event that follows. -/
def handleAction (action : GuiWindowAction) (s : WindowPair) : WindowPair :=
  match action with
  | .maximize => observe true { s with hostState := s.hostState.expect true }
  | .restore => observe false { s with hostState := s.hostState.expect false }
  | _ => s

/-- `WindowHandle::set_maximized`. -/
def setMaximized (maximized : Bool) (s : WindowPair) : WindowPair :=
  if s.guestMaximized = maximized then s else { s with guestMaximized := maximized }

/-- The guest's handling of `FrameKind::GuiWindowAction`. -/
def applyAction (action : GuiWindowAction) (s : WindowPair) : WindowPair :=
  match action with
  | .maximize => setMaximized true s
  | .restore => setMaximized false s
  | _ => s

/-- What happens next. -/
inductive Move where
  /-- The guest window is toggled: `request_maximize_transition`. -/
  | guestToggle
  /-- The host window is toggled natively. -/
  | hostToggle
  /-- The host takes the next action of the guest. -/
  | deliverToHost
  /-- The guest takes the next action of the host. -/
  | deliverToGuest
  deriving DecidableEq, Repr

/-- One move. -/
def step (s : WindowPair) : Move → WindowPair
  | .guestToggle =>
    let (action, maximized) := maximizeTransition s.guestMaximized
    { s with guestMaximized := maximized, toHost := s.toHost ++ [action] }
  | .hostToggle => observe (!s.hostMaximized) s
  | .deliverToHost =>
    match s.toHost with
    | [] => s
    | action :: rest => handleAction action { s with toHost := rest }
  | .deliverToGuest =>
    match s.toGuest with
    | [] => s
    | action :: rest => applyAction action { s with toGuest := rest }

/-! ## Where the windows end up -/

/-- Whether an action asks for the maximized state. -/
def asksFor (action : GuiWindowAction) : Bool := action == .maximize

/-- Where a window ends up: at the last action sent to it, or where it is. -/
def settles (channel : List GuiWindowAction) (maximized : Bool) : Bool :=
  (channel.getLast?.map asksFor).getD maximized

/-- Only explicit states are sent. -/
def Explicit (channel : List GuiWindowAction) : Prop :=
  ∀ action ∈ channel, action = .maximize ∨ action = .restore

/-- What holds between any two moves: the presenter has observed its window, it expects nothing
    but the state it is in, and only explicit states are under way. -/
structure Kept (s : WindowPair) : Prop where
  observed : s.hostState.observedMaximized = s.hostMaximized
  expected : ∀ maximized ∈ s.hostState.expectedFromGuest, maximized = s.hostMaximized
  toHost : Explicit s.toHost
  toGuest : Explicit s.toGuest

/-- Both windows end up in the same state. -/
def Agrees (s : WindowPair) : Prop :=
  settles s.toHost s.hostMaximized = settles s.toGuest s.guestMaximized

/-- A user's move. -/
def Move.isToggle : Move → Bool
  | .guestToggle | .hostToggle => true
  | .deliverToHost | .deliverToGuest => false

/-- The toggle crosses no contrary action: nothing is on its way to the window, or the last
    action under way asks for the state the toggle gives it. -/
def Clear (s : WindowPair) : Move → Prop
  | .guestToggle => ∀ action ∈ s.toGuest.getLast?, asksFor action = !s.guestMaximized
  | .hostToggle => ∀ action ∈ s.toHost.getLast?, asksFor action = !s.hostMaximized
  | _ => True

/-! ## One move -/

theorem settles_nil (maximized : Bool) : settles [] maximized = maximized := rfl

theorem settles_concat (channel : List GuiWindowAction) (action : GuiWindowAction)
    (maximized : Bool) : settles (channel ++ [action]) maximized = asksFor action := by
  simp [settles]

/-- Taking the next action from a channel does not change where it leads. -/
theorem settles_cons (action : GuiWindowAction) (channel : List GuiWindowAction)
    (maximized : Bool) :
    settles channel (asksFor action) = settles (action :: channel) maximized := by
  rcases List.eq_nil_or_concat channel with rfl | ⟨channel, last, rfl⟩
  · simp [settles]
  · rw [List.concat_eq_append, settles_concat, ← List.cons_append, settles_concat]

/-- A window ends up where it is when nothing contrary is under way. -/
theorem settles_eq_iff {channel : List GuiWindowAction} {maximized : Bool} :
    settles channel maximized = maximized ↔
      ∀ action ∈ channel.getLast?, asksFor action = maximized := by
  unfold settles
  cases channel.getLast? <;> simp

theorem Explicit.concat {channel : List GuiWindowAction} (h : Explicit channel)
    {action : GuiWindowAction} (haction : action = .maximize ∨ action = .restore) :
    Explicit (channel ++ [action]) := by
  intro other hother
  rcases List.mem_append.mp hother with hmem | hmem
  · exact h other hmem
  · rw [List.mem_singleton.mp hmem]
    exact haction

variable {s : WindowPair}

/-- A native change is always reported. -/
theorem observe_toggle (h : Kept s) :
    observe (!s.hostMaximized) s =
      { s with
        hostMaximized := !s.hostMaximized
        hostState := .new (!s.hostMaximized)
        toGuest := s.toGuest ++ [if !s.hostMaximized then .maximize else .restore] } := by
  have hexpected : s.hostState.expectedFromGuest ≠ some (!s.hostMaximized) := by
    intro heq
    have := h.expected (!s.hostMaximized) heq
    simp at this
  rw [observe, HostWindowState.observe, h.observed, if_neg (by simp), if_neg hexpected]
  rfl

/-- A state the guest asks for is taken without an answer. -/
theorem observe_expected (h : Kept s) (maximized : Bool) :
    ∃ hostState : HostWindowState, hostState.observedMaximized = maximized ∧
      (∀ expected ∈ hostState.expectedFromGuest, expected = maximized) ∧
      observe maximized { s with hostState := s.hostState.expect maximized } =
        { s with hostMaximized := maximized, hostState } := by
  by_cases hsame : maximized = s.hostMaximized
  · refine ⟨s.hostState.expect maximized, ?_, ?_, ?_⟩
    · exact h.observed.trans hsame.symm
    · simp [HostWindowState.expect]
    · simp [observe, HostWindowState.observe, HostWindowState.expect, h.observed, hsame]
  · refine ⟨.new maximized, rfl, by simp [HostWindowState.new], ?_⟩
    simp [observe, HostWindowState.observe, HostWindowState.expect, HostWindowState.new,
      h.observed, hsame]

theorem handleAction_eq (h : Kept s) {action : GuiWindowAction}
    (haction : action = .maximize ∨ action = .restore) :
    ∃ hostState : HostWindowState, hostState.observedMaximized = asksFor action ∧
      (∀ expected ∈ hostState.expectedFromGuest, expected = asksFor action) ∧
      handleAction action s = { s with hostMaximized := asksFor action, hostState } := by
  rcases haction with rfl | rfl
  · exact observe_expected h true
  · exact observe_expected h false

theorem applyAction_eq {action : GuiWindowAction}
    (haction : action = .maximize ∨ action = .restore) :
    applyAction action s = { s with guestMaximized := asksFor action } := by
  have hset (maximized : Bool) :
      setMaximized maximized s = { s with guestMaximized := maximized } := by
    unfold setMaximized
    split
    next heq => rw [← heq]
    next => rfl
  rcases haction with rfl | rfl
  · exact hset true
  · exact hset false

theorem kept_opened (guestMaximized : Bool) : Kept (opened guestMaximized) := by
  cases guestMaximized
  · exact ⟨rfl, by simp [opened, HostWindowState.new], by simp [Explicit, opened,
      initialWindowStateAction], by simp [Explicit, opened]⟩
  · exact ⟨rfl, by simp [opened, HostWindowState.new], by simp [Explicit, opened,
      initialWindowStateAction], by simp [Explicit, opened]⟩

/-- Every move keeps the invariant. -/
theorem Kept.step (h : Kept s) (move : Move) : Kept (s.step move) := by
  cases move with
  -- The guest asks the host for the state it has changed to.
  | guestToggle =>
    have haction : (maximizeTransition s.guestMaximized).1 = .maximize ∨
        (maximizeTransition s.guestMaximized).1 = .restore := by
      cases s.guestMaximized <;> simp [maximizeTransition]
    exact { h with toHost := h.toHost.concat haction }
  -- The host observes its own toggle, and tells the guest.
  | hostToggle =>
    rw [WindowPair.step, observe_toggle h]
    refine { h with observed := rfl, expected := by simp [HostWindowState.new], toGuest := ?_ }
    exact h.toGuest.concat (by cases s.hostMaximized <;> simp)
  -- The host obeys, and expects to observe what it has done.
  | deliverToHost =>
    rw [WindowPair.step]
    split
    next => exact h
    next action rest hchannel =>
      have hrest : Kept { s with toHost := rest } :=
        { h with toHost := fun other hother => h.toHost other (by simp [hchannel, hother]) }
      have haction := h.toHost action (by simp [hchannel])
      obtain ⟨hostState, hobserved, hexpected, heq⟩ := handleAction_eq hrest haction
      rw [heq]
      exact { hrest with observed := hobserved, expected := hexpected }
  -- The guest obeys, and tells nobody.
  | deliverToGuest =>
    rw [WindowPair.step]
    split
    next => exact h
    next action rest hchannel =>
      have haction := h.toGuest action (by simp [hchannel])
      rw [applyAction_eq haction]
      exact { h with toGuest := fun other hother => h.toGuest other (by simp [hchannel, hother]) }

/-- Deliveries change neither end. -/
theorem agrees_deliver (h : Kept s) {move : Move} (hmove : move.isToggle = false) :
    Agrees (s.step move) ↔ Agrees s := by
  cases move with
  | guestToggle => cases hmove
  | hostToggle => cases hmove
  -- What a channel settles at is not changed by delivering its first action.
  | deliverToHost =>
    rw [WindowPair.step]
    split
    next => exact Iff.rfl
    next action rest hchannel =>
      have hrest : Kept { s with toHost := rest } :=
        { h with toHost := fun other hother => h.toHost other (by simp [hchannel, hother]) }
      obtain ⟨hostState, -, -, heq⟩ :=
        handleAction_eq hrest (h.toHost action (by simp [hchannel]))
      rw [heq]
      show settles rest (asksFor action) = _ ↔ _
      rw [settles_cons action rest s.hostMaximized, ← hchannel]
      exact Iff.rfl
  | deliverToGuest =>
    rw [WindowPair.step]
    split
    next => exact Iff.rfl
    next action rest hchannel =>
      rw [applyAction_eq (h.toGuest action (by simp [hchannel]))]
      show _ = settles rest (asksFor action) ↔ _
      rw [settles_cons action rest s.guestMaximized, ← hchannel]
      exact Iff.rfl

/-- A toggle decides both ends: they are the same unless it crosses a contrary action. -/
theorem agrees_toggle (h : Kept s) {move : Move} (hmove : move.isToggle = true) :
    Agrees (s.step move) ↔ Clear s move := by
  cases move with
  -- The host settles at what the guest asks for last.
  | guestToggle =>
    have hasks : asksFor (maximizeTransition s.guestMaximized).1 = !s.guestMaximized := by
      cases s.guestMaximized <;> rfl
    have hstate : (maximizeTransition s.guestMaximized).2 = !s.guestMaximized := by
      cases s.guestMaximized <;> rfl
    rw [WindowPair.step]
    unfold Agrees
    dsimp only
    rw [settles_concat, hasks, hstate, eq_comm]
    exact settles_eq_iff
  -- And the guest at what the host does.
  | hostToggle =>
    have hasks : asksFor (if !s.hostMaximized then .maximize else .restore) = !s.hostMaximized := by
      cases s.hostMaximized <;> rfl
    rw [WindowPair.step, observe_toggle h]
    unfold Agrees
    dsimp only
    rw [settles_concat, hasks]
    exact settles_eq_iff
  | deliverToHost => cases hmove
  | deliverToGuest => cases hmove

/-! ## Every run -/

/-- The last toggle of a run, if there is one, crosses no contrary action. -/
def LastToggleClear (start : WindowPair) (moves : List Move) : Prop :=
  ∀ before toggle after, moves = before ++ toggle :: after → toggle.isToggle = true →
    (∀ move ∈ after, move.isToggle = false) → Clear (run WindowPair.step start before) toggle

theorem kept_run (guestMaximized : Bool) (moves : List Move) :
    Kept (run WindowPair.step (opened guestMaximized) moves) :=
  run_invariant (fun _ move h _ => h.step move) (kept_opened guestMaximized)
    (along_of_forall_mem fun _ _ => trivial)

theorem agrees_opened (guestMaximized : Bool) : Agrees (opened guestMaximized) := by
  cases guestMaximized <;> rfl

/-- A run that ends with a toggle ends with its last toggle. -/
theorem lastToggleClear_toggle {start : WindowPair} {moves : List Move} {move : Move}
    (hmove : move.isToggle = true) :
    LastToggleClear start (moves ++ [move]) ↔ Clear (run WindowPair.step start moves) move := by
  constructor
  · intro h
    exact h moves move [] rfl hmove (by simp)
  · intro hclear before toggle after hmoves htoggle hafter
    rcases List.eq_nil_or_concat after with rfl | ⟨after, last, rfl⟩
    · obtain ⟨rfl, hlast⟩ := List.append_inj' hmoves rfl
      obtain rfl : move = toggle := by simpa using hlast
      exact hclear
    · rw [List.concat_eq_append, ← List.cons_append, ← List.append_assoc] at hmoves
      obtain ⟨-, hlast⟩ := List.append_inj' hmoves rfl
      obtain rfl : move = last := by simpa using hlast
      have hnot := hafter move (by simp)
      rw [hmove] at hnot
      cases hnot

/-- A delivery at the end does not change which toggle was the last. -/
theorem lastToggleClear_deliver {start : WindowPair} {moves : List Move} {move : Move}
    (hmove : move.isToggle = false) :
    LastToggleClear start (moves ++ [move]) ↔ LastToggleClear start moves := by
  constructor
  · intro h before toggle after hmoves htoggle hafter
    refine h before toggle (after ++ [move]) (by simp [hmoves]) htoggle ?_
    intro other hother
    rcases List.mem_append.mp hother with hmem | hmem
    · exact hafter other hmem
    · rw [List.mem_singleton.mp hmem]
      exact hmove
  · intro h before toggle after hmoves htoggle hafter
    rcases List.eq_nil_or_concat after with rfl | ⟨after, last, rfl⟩
    · obtain ⟨-, hlast⟩ := List.append_inj' hmoves rfl
      obtain rfl : move = toggle := by simpa using hlast
      rw [hmove] at htoggle
      cases htoggle
    · rw [List.concat_eq_append, ← List.cons_append, ← List.append_assoc] at hmoves
      obtain ⟨hmoves', -⟩ := List.append_inj' hmoves rfl
      exact h before toggle after hmoves' htoggle fun other hother =>
        hafter other (by simp [hother])

/-- Both windows are bound for the same state exactly when the last toggle was clear. -/
theorem agrees_run (guestMaximized : Bool) (moves : List Move) :
    Agrees (run WindowPair.step (opened guestMaximized) moves) ↔
      LastToggleClear (opened guestMaximized) moves := by
  induction moves using List.reverseRecOn with
  | nil =>
    refine iff_of_true (agrees_opened guestMaximized) ?_
    intro before toggle after hmoves
    simp at hmoves
  | append_singleton moves move ih =>
    have hkept := kept_run guestMaximized moves
    rw [run_append, run_cons, run_nil]
    cases hmove : move.isToggle with
    | true => rw [agrees_toggle hkept hmove, lastToggleClear_toggle hmove]
    | false => rw [agrees_deliver hkept hmove, ih, lastToggleClear_deliver hmove]

/-- In every run of toggles and deliveries, whenever no action is under way: the host window and
    the guest window have the same state exactly when the last toggle crossed no contrary
    action. -/
theorem windows_agree_iff_last_toggle_clear (guestMaximized : Bool) (moves : List Move)
    (htoHost : (run WindowPair.step (opened guestMaximized) moves).toHost = [])
    (htoGuest : (run WindowPair.step (opened guestMaximized) moves).toGuest = []) :
    (run WindowPair.step (opened guestMaximized) moves).hostMaximized =
        (run WindowPair.step (opened guestMaximized) moves).guestMaximized ↔
      LastToggleClear (opened guestMaximized) moves := by
  rw [← agrees_run, Agrees, htoHost, htoGuest, settles_nil, settles_nil]

/-- The guest toggles, the host follows, and nothing is under way. -/
theorem guest_toggle_reaches_host :
    (run WindowPair.step (opened false) [.guestToggle, .deliverToHost]).hostMaximized = true ∧
    ((run WindowPair.step (opened false) [.guestToggle, .deliverToHost]).hostMaximized =
        (run WindowPair.step (opened false) [.guestToggle, .deliverToHost]).guestMaximized ↔
      LastToggleClear (opened false) [.guestToggle, .deliverToHost]) :=
  ⟨by decide, windows_agree_iff_last_toggle_clear false _ (by decide) (by decide)⟩

/-- The guest maximizes and restores while the host's own maximize is on its way to it: the host
    ends restored, the guest maximized. -/
theorem crossing_toggles_diverge :
    ¬ ∀ (guestMaximized : Bool) (moves : List Move),
      (run WindowPair.step (opened guestMaximized) moves).toHost = [] →
      (run WindowPair.step (opened guestMaximized) moves).toGuest = [] →
      (run WindowPair.step (opened guestMaximized) moves).hostMaximized =
        (run WindowPair.step (opened guestMaximized) moves).guestMaximized := by
  intro h
  have hsame := h false [.guestToggle, .hostToggle, .guestToggle, .deliverToHost, .deliverToHost,
    .deliverToGuest] (by decide) (by decide)
  revert hsame
  decide

end WindowPair

end Lsw.Gui
