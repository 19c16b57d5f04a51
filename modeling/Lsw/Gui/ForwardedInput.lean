import Lsw.Agent.HeldInput
import Lsw.Lib.Run
import Lsw.Lib.Vec
import Lsw.Presenter.Input

/-!
# Input between the Host and the Guest

The presenter records what it has forwarded as pressed, the agent records what it has pressed, and the
events between them are handled in the order in which they were sent.  Either side may drop an event:
the presenter one that changes nothing, the agent a press whose target is not the captured window.

What the agent records is bounded by what it has been asked for, and that, once everything under way
is handled, by what the presenter records.  What is recorded is held in the guest, except that the tap
of Escape that dismisses a shell surface also releases an Escape that is held.
-/

namespace Lsw.Gui

open Lsw.Lib Protocol Presenter Agent Relation

/-! ## The host -/

/-- What happens at the host window, with the instant where the presenter asks for it. -/
inductive HostEvent where
  | keyboardInput (key : KeyCode) (pressed : Bool) (now : Nat)
  | mouseInput (button : MouseButton) (pressed : Bool) (x y : UInt32) (now : Nat)
  | cursorMoved (x y : UInt32) (now : Nat)
  | mouseWheel (delta : Int16) (horizontal : Bool) (x y : UInt32) (now : Nat)
  | focused (observed : Bool) (pointer : Option (UInt32 × UInt32))
  | closeRequested (pointer : Option (UInt32 × UInt32))
  | aboutToWait (now : Nat) (pointer : Option (UInt32 × UInt32))

/-- An event that may have been forwarded, which counts as activity when it was. -/
def forwarded (now : Nat) (result : Option GuiInputEvent × ForwardedInputState) :
    List GuiInputEvent × ForwardedInputState :=
  match result with
  | (some event, state) => ([event], state.noteActivity now)
  | (none, state) => ([], state)

/-- What the presenter sends for an event of its window, whatever its own checks let through. -/
def HostEvent.forward (state : ForwardedInputState) :
    HostEvent → List GuiInputEvent × ForwardedInputState
  | .keyboardInput key pressed now => forwarded now (state.keyEvent key pressed)
  | .mouseInput button pressed x y now =>
    match guestPointerButton button with
    | some (index, guestButton) =>
      forwarded now (state.pointerButtonEvent index guestButton pressed x y)
    | none => ([], state)
  | .cursorMoved x y now => forwarded now (some (.pointerMove x y), state)
  | .mouseWheel delta horizontal x y now =>
    forwarded now (some (.pointerWheel delta horizontal x y), state)
  | .focused observed pointer =>
    if observed then ([.focus true], state)
    else
      let (events, released) := state.releaseEvents pointer
      (events ++ [.focus false], released)
  | .closeRequested pointer => state.releaseEvents pointer
  | .aboutToWait now pointer =>
    if state.leaseExpired now then state.releaseEvents pointer else ([], state)

/-- The event makes the presenter release what it has forwarded. -/
def HostEvent.Releases (state : ForwardedInputState) : HostEvent → Prop
  | .focused observed _ => observed = false
  | .closeRequested _ => True
  | .aboutToWait now _ => state.leaseExpired now = true
  | _ => False

/-- The place of a button in `pressed_buttons`. -/
def forwardedButton (buttons : Vector Bool 3) : GuiPointerButton → Bool
  | .left => buttons[0]?.getD false
  | .middle => buttons[1]?.getD false
  | .right => buttons[2]?.getD false
  | .back | .forward => false

/-- What the presenter records as pressed, in the terms of the agent. -/
def pressed (state : ForwardedInputState) : Set InjectedItem
  | .key key => key.scanCode = 0 ∧ ⟨key.virtualKey, key.extended⟩ ∈ state.pressedKeys
  | .button button => forwardedButton state.pressedButtons button = true

/-! ## Both sides -/

/-- The presenter, the events on their way, and the agent. -/
structure InputPair where
  host : ForwardedInputState
  inFlight : List GuiInputEvent
  agent : WindowHandle

namespace InputPair

/-- Nothing is pressed yet. -/
def opened : InputPair := ⟨.default, [], .new⟩

inductive Move where
  | host (event : HostEvent)
  /-- The agent handles the next event. -/
  | deliver (desktop : Desktop)

def step (s : InputPair) : Move → InputPair
  | .host event =>
    ⟨(event.forward s.host).2, s.inFlight ++ (event.forward s.host).1, s.agent⟩
  | .deliver desktop =>
    match s.inFlight with
    | [] => s
    | event :: rest => ⟨s.host, rest, (WindowHandle.input desktop event s.agent).state⟩

/-- Every `SendInput` succeeds. -/
def Move.Sends : Move → Prop
  | .host _ => True
  | .deliver desktop => desktop.SendsInput ∧ ∀ virtualKey pressed,
      desktop.sendTap virtualKey pressed = .ok ()

/-- The requests on their way. -/
def requests (s : InputPair) : List (Request InjectedItem) :=
  s.inFlight.map WindowHandle.request

/-- The key that dismisses a shell surface. -/
def escapeKey : InjectedItem := .key ⟨WindowHandle.vkEscape, 0, false⟩

def menuKey : InjectedItem := .key ⟨WindowHandle.vkMenu, 0, false⟩

/-- What holds between any two moves. -/
structure InSync (s : InputPair) : Prop where
  exact : s.agent.book.Exact {escapeKey}
  asked : Request.results s.requests s.agent.recorded ⊆ pressed s.host
  menu_up : s.agent.injected.recorded menuKey = false
  menu_unasked : ∀ event ∈ s.inFlight, menuKey ∉ WindowHandle.asks event

end InputPair

/-! ## What the presenter asks for -/

open WindowHandle (request asks)

/-- The presenter sends what it is allowed to and records at least what it has asked for. -/
def Asks (state : ForwardedInputState) (sent : List GuiInputEvent × ForwardedInputState) : Prop :=
  Request.results (sent.1.map request) (pressed state) ⊆ pressed sent.2

theorem asks_forwarded {state : ForwardedInputState} {now : Nat}
    {result : Option GuiInputEvent × ForwardedInputState}
    (h : Asks state (result.1.toList, result.2)) : Asks state (forwarded now result) := by
  obtain ⟨event, state'⟩ := result
  cases event with
  | none => exact h
  | some event => exact h

/-- A key that is added is recorded, and so is what was. -/
theorem insert_subset_pressed_addKey (state : ForwardedInputState) (key : ForwardedKey) :
    insert (.key ⟨key.virtualKey, 0, key.extended⟩) (pressed state) ⊆
      pressed (state.addKey key) := by
  unfold ForwardedInputState.addKey
  split
  · rintro item (rfl | hold)
    · exact ⟨rfl, ‹_›⟩
    · exact hold
  · rintro item (rfl | hold)
    · exact ⟨rfl, List.mem_append_right _ (List.mem_singleton_self _)⟩
    · cases item with
      | key injected => exact ⟨hold.1, List.mem_append_left _ hold.2⟩
      | button button => exact hold

/-- A key that is removed is the only one that is recorded no more. -/
theorem diff_subset_pressed_removeKeyAt {state : ForwardedInputState} {key : ForwardedKey}
    {position : Nat} (h : state.pressedKeys.findIdx? (· == key) = some position) :
    pressed state \ {.key ⟨key.virtualKey, 0, key.extended⟩} ⊆
      pressed (state.removeKeyAt position) := by
  rintro item ⟨hitem, hother⟩
  cases item with
  | key injected =>
    refine ⟨hitem.1, ?_⟩
    change _ ∈ state.pressedKeys.eraseIdx position
    rw [(eraseIdx_of_findIdx? h).2, state.pressedKeys_nodup.mem_erase_iff]
    refine ⟨fun heq => hother ?_, hitem.2⟩
    obtain ⟨virtualKey, scanCode, extended⟩ := injected
    obtain rfl : scanCode = 0 := hitem.1
    exact heq ▸ rfl
  | button button => exact hitem

/-- A key event records what it asks for. -/
theorem asks_keyEvent (state : ForwardedInputState) (key : KeyCode) (down : Bool) :
    Asks state ((state.keyEvent key down).1.toList, (state.keyEvent key down).2) := by
  unfold ForwardedInputState.keyEvent
  split
  · exact subset_rfl
  rename_i virtualKey extended _
  cases down with
  | true => exact insert_subset_pressed_addKey state ⟨virtualKey, extended⟩
  | false =>
    dsimp only
    rw [if_neg Bool.false_ne_true]
    cases hfound : state.pressedKeys.findIdx? (· == ⟨virtualKey, extended⟩) with
    | none => exact subset_rfl
    | some position => exact diff_subset_pressed_removeKeyAt hfound

/-- A button is at the place that `guest_pointer_button` gives it. -/
theorem forwardedButton_set {button : MouseButton} {index : Nat} {guestButton : GuiPointerButton}
    (h : guestPointerButton button = some (index, guestButton)) (hlt : index < 3)
    (buttons : Vector Bool 3) (down : Bool) (other : GuiPointerButton) :
    forwardedButton (buttons.set index down) other =
      if other = guestButton then down else forwardedButton buttons other := by
  cases button <;> cases h <;> cases other <;> simp [forwardedButton]

/-- So does the event of a button. -/
theorem asks_pointerButtonEvent (state : ForwardedInputState) {button : MouseButton} {index : Nat}
    {guestButton : GuiPointerButton} (h : guestPointerButton button = some (index, guestButton))
    (down : Bool) (x y : UInt32) :
    Asks state ((state.pointerButtonEvent index guestButton down x y).1.toList,
      (state.pointerButtonEvent index guestButton down x y).2) := by
  unfold ForwardedInputState.pointerButtonEvent
  split
  · rename_i hlt
    split
    · exact subset_rfl
    -- The place of the button, and only that, is set.
    intro item hitem
    have hset := forwardedButton_set h hlt state.pressedButtons down
    cases down with
    | true =>
      obtain rfl | hold := hitem
      · exact (hset guestButton).trans (if_pos rfl)
      · cases item with
        | key injected => exact hold
        | button other =>
          refine (hset other).trans ?_
          split
          · rfl
          · exact hold
    | false =>
      obtain ⟨hold, hother⟩ := hitem
      cases item with
      | key injected => exact hold
      | button other =>
        refine (hset other).trans ?_
        rw [if_neg fun heq => hother (congrArg InjectedItem.button heq)]
        exact hold
  · exact subset_rfl

/-- The items that are recorded, in the order in which they are released. -/
def releasedItems (state : ForwardedInputState) : List InjectedItem :=
  state.pressedKeys.reverse.map (fun key => .key ⟨key.virtualKey, 0, key.extended⟩) ++
    ([.left, .middle, .right].filter (forwardedButton state.pressedButtons)).map .button

theorem mem_releasedItems {state : ForwardedInputState} {item : InjectedItem}
    (h : item ∈ pressed state) : item ∈ releasedItems state := by
  cases item with
  | key key =>
    obtain ⟨virtualKey, scanCode, extended⟩ := key
    obtain rfl : scanCode = 0 := h.1
    exact List.mem_append_left _ (List.mem_map.mpr ⟨_, List.mem_reverse.mpr h.2, rfl⟩)
  | button button =>
    refine List.mem_append_right _ (List.mem_map.mpr ⟨button, List.mem_filter.mpr ⟨?_, h⟩, rfl⟩)
    cases button with
    | back => exact nomatch (show false = true from h)
    | forward => exact nomatch (show false = true from h)
    | _ => simp

/-- The loop over the buttons releases those that are recorded, and leaves none. -/
theorem releaseButtons_all (x y : UInt32) (state : ForwardedInputState) :
    (state.releaseButtons x y [(0, .left), (1, .middle), (2, .right)]).1.map request =
        ([GuiPointerButton.left, .middle, .right].filter
          (forwardedButton state.pressedButtons)).map (.release ∘ .button) ∧
      (∀ button, forwardedButton (state.releaseButtons x y
        [(0, .left), (1, .middle), (2, .right)]).2.pressedButtons button = false) ∧
      (state.releaseButtons x y [(0, .left), (1, .middle), (2, .right)]).2.pressedKeys =
        state.pressedKeys := by
  obtain ⟨keys, ⟨⟨buttons⟩, hsize⟩, deadline, hnodup⟩ := state
  match buttons, hsize with
  | [left, middle, right], _ =>
    refine ⟨?_, fun button => ?_, ?_⟩
    · cases left <;> cases middle <;> cases right <;> rfl
    · cases left <;> cases middle <;> cases right <;> cases button <;> rfl
    · cases left <;> cases middle <;> cases right <;> rfl

/-- `release_events` asks for the release of everything that is recorded, and records nothing. -/
theorem requests_releaseEvents (state : ForwardedInputState) (pointer : Option (UInt32 × UInt32)) :
    (state.releaseEvents pointer).1.map request = (releasedItems state).map .release ∧
      pressed (state.releaseEvents pointer).2 = ∅ := by
  have hloop (x y : UInt32) := releaseButtons_all x y
    { state with leaseDeadline := none, pressedKeys := [], pressedKeys_nodup := .nil }
  refine ⟨?_, Set.eq_empty_iff_forall_notMem.mpr fun item hitem => ?_⟩
  · simp only [ForwardedInputState.releaseEvents, List.map_append, (hloop _ _).1, releasedItems,
      List.map_map]
    rfl
  · cases item with
    | key key =>
      have hkeys : (state.releaseEvents pointer).2.pressedKeys = [] := (hloop _ _).2.2
      have hmem := hitem.2
      rw [hkeys] at hmem
      exact List.not_mem_nil hmem
    | button button =>
      exact absurd (((hloop _ _).2.1 button).symm.trans hitem) nofun

/-- What has been asked for by then is nothing. -/
theorem asks_releaseEvents (state : ForwardedInputState) (pointer : Option (UInt32 × UInt32)) :
    Request.results ((state.releaseEvents pointer).1.map request) (pressed state) = ∅ := by
  rw [(requests_releaseEvents state pointer).1, Request.results_release]
  exact Set.eq_empty_iff_forall_notMem.mpr fun item hitem => hitem.2 (mem_releasedItems hitem.1)

/-- Every event of the host. -/
theorem asks_forward (state : ForwardedInputState) (event : HostEvent) :
    Asks state (event.forward state) := by
  -- What is released asks for nothing new.
  have hrelease (pointer : Option (UInt32 × UInt32)) : Asks state (state.releaseEvents pointer) :=
    (asks_releaseEvents state pointer).subset.trans (Set.empty_subset _)
  -- One case for each event of the host.
  cases event with
  | keyboardInput key down now => exact asks_forwarded (asks_keyEvent state key down)
  | mouseInput button down x y now =>
    dsimp only [HostEvent.forward]
    split
    · exact asks_forwarded (asks_pointerButtonEvent state ‹_› down x y)
    · exact subset_rfl
  | cursorMoved x y now => exact subset_rfl
  | mouseWheel delta horizontal x y now => exact subset_rfl
  | focused observed pointer =>
    cases observed with
    | true => exact subset_rfl
    | false =>
      dsimp only [HostEvent.forward]
      rw [if_neg Bool.false_ne_true]
      unfold Asks
      rw [List.map_append, Request.results_append]
      exact Set.empty_subset _
  | closeRequested pointer => exact hrelease pointer
  | aboutToWait now pointer =>
    dsimp only [HostEvent.forward]
    split
    · exact hrelease pointer
    · exact subset_rfl

/-- No physical key is Alt as the activation taps it. -/
theorem simple_ne_menu (key : KeyCode) : key.simple ≠ some WindowHandle.vkMenu := by
  cases key with
  | digit n => revert n; decide
  | letter n => revert n; decide
  | function n => revert n; decide
  | numpad n => revert n; decide
  | _ => decide

/-- No key event asks for the menu key. -/
theorem menu_unasked_keyEvent (state : ForwardedInputState) (key : KeyCode) (down : Bool) :
    ∀ sent ∈ (state.keyEvent key down).1, InputPair.menuKey ∉ asks sent := by
  unfold ForwardedInputState.keyEvent
  split
  · exact nofun
  rename_i virtualKey extended hkey
  have hsimple : key.simple = some virtualKey := by
    obtain ⟨simple, hsimple, heq⟩ := Option.map_eq_some_iff.mp hkey
    obtain rfl : simple = virtualKey := congrArg Prod.fst heq
    exact hsimple
  cases down with
  | true =>
    rintro sent ⟨⟩ hasked
    have hpress := Request.press.inj hasked
    simp only [InputPair.menuKey, InjectedItem.key.injEq, InjectedKey.mk.injEq] at hpress
    exact simple_ne_menu key (hpress.1 ▸ hsimple)
  | false =>
    dsimp only
    rw [if_neg Bool.false_ne_true]
    split
    · exact nofun
    · rintro sent ⟨⟩ hasked
      cases hasked

theorem menu_unasked_releaseEvents (state : ForwardedInputState)
    (pointer : Option (UInt32 × UInt32)) :
    ∀ sent ∈ (state.releaseEvents pointer).1, InputPair.menuKey ∉ asks sent := by
  intro sent hsent hasked
  have hmem : request sent ∈ (releasedItems state).map Request.release :=
    (requests_releaseEvents state pointer).1 ▸ List.mem_map_of_mem hsent
  obtain ⟨item, _, hitem⟩ := List.mem_map.mp hmem
  cases hitem.trans hasked

theorem forwarded_events (now : Nat) (result : Option GuiInputEvent × ForwardedInputState) :
    (forwarded now result).1 = result.1.toList := by
  obtain ⟨event, state⟩ := result
  cases event <;> rfl

/-- Nothing that the host forwards does. -/
theorem menu_unasked_forward (state : ForwardedInputState) (event : HostEvent) :
    ∀ sent ∈ (event.forward state).1, InputPair.menuKey ∉ asks sent := by
  -- Events that are sent alone ask for no menu key.
  have hone (sent : GuiInputEvent) (h : InputPair.menuKey ∉ asks sent) :
      ∀ other ∈ [sent], InputPair.menuKey ∉ asks other := fun other hother =>
    List.mem_singleton.mp hother ▸ h
  cases event with
  -- No key that is forwarded is the menu key.
  | keyboardInput key down now =>
    intro sent hsent
    rw [HostEvent.forward, forwarded_events] at hsent
    exact menu_unasked_keyEvent state key down sent (Option.mem_toList.mp hsent)
  -- A button asks for a button.
  | mouseInput button down x y now =>
    intro sent hsent hasked
    dsimp only [HostEvent.forward] at hsent
    split at hsent
    · rw [forwarded_events] at hsent
      unfold ForwardedInputState.pointerButtonEvent at hsent
      split at hsent
      · split at hsent
        · simp at hsent
        · obtain rfl := List.mem_singleton.mp hsent
          cases down <;> cases hasked
      · simp at hsent
    · simp at hsent
  | cursorMoved x y now => exact hone _ fun hasked => by cases hasked
  | mouseWheel delta horizontal x y now => exact hone _ fun hasked => by cases hasked
  | focused observed pointer =>
    cases observed with
    | true => exact hone _ fun hasked => by cases hasked
    -- Losing the focus releases what is held, and then says so.
    | false =>
      dsimp only [HostEvent.forward]
      rw [if_neg Bool.false_ne_true]
      intro sent hsent
      obtain hreleased | hfocus := List.mem_append.mp hsent
      · exact menu_unasked_releaseEvents state pointer sent hreleased
      · exact hone _ (fun hasked => by cases hasked) sent hfocus
  | closeRequested pointer => exact menu_unasked_releaseEvents state pointer
  -- An idle loop releases what has been held too long.
  | aboutToWait now pointer =>
    dsimp only [HostEvent.forward]
    split
    · exact menu_unasked_releaseEvents state pointer
    · exact nofun

/-! ## Moves -/

namespace InputPair

/-- At the beginning nothing is held. -/
theorem inSync_opened : InSync opened where
  exact := {
    covered := fun item hitem => by cases hitem
    holds_of_recorded := fun item hitem => by
      cases item with
      | key key => cases hitem
      | button button => cases button <;> cases hitem
    matched := fun before item after hsplit => by simp [WindowHandle.book, opened,
      WindowHandle.edges, WindowHandle.new] at hsplit }
  asked := by
    intro item hitem
    cases item with
    | key key => cases hitem
    | button button => cases button <;> cases hitem
  menu_up := rfl
  menu_unasked := nofun

theorem InSync.host {s : InputPair} (h : s.InSync) (event : HostEvent) :
    (s.step (.host event)).InSync where
  exact := h.exact
  asked := by
    have hasks := asks_forward s.host event
    simp only [step, requests, List.map_append, Request.results_append]
    exact (Request.results_mono _ h.asked).trans hasks
  menu_up := h.menu_up
  menu_unasked sent hsent := (List.mem_append.mp hsent).elim (h.menu_unasked sent)
    (menu_unasked_forward s.host event sent)

/-- When every `SendInput` succeeds, a tap arrives as a whole. -/
theorem taps_arrive {desktop : Desktop}
    (h : ∀ virtualKey pressed, desktop.sendTap virtualKey pressed = .ok ()) {a b : Book InjectedItem}
    (htaps : ReflTransGen (Book.Taps WindowHandle.tappedKeys (WindowHandle.tapArrives desktop true)
      (WindowHandle.tapArrives desktop false)) a b) :
    ReflTransGen (Book.Taps WindowHandle.tappedKeys (fun _ => true) fun _ => true) a b := by
  have harrives (down : Bool) {item : InjectedItem} (hitem : item ∈ WindowHandle.tappedKeys) :
      WindowHandle.tapArrives desktop down item = true := by
    obtain rfl | rfl := hitem <;> exact congrArg Except.toBool (h _ down)
  refine ReflTransGen.mono (fun a b hstep => ?_) _ _ htaps
  cases hstep with
  | tap hitem =>
    rw [harrives true hitem, harrives false hitem]
    exact .tap hitem

/-- A delivery keeps the two ends in step, when its input is sent. -/
theorem InSync.deliver {s : InputPair} (h : s.InSync) {desktop : Desktop}
    (hsends : (Move.deliver desktop).Sends) : (s.step (.deliver desktop)).InSync := by
  obtain ⟨host, inFlight, agent⟩ := s
  cases inFlight with
  | nil => exact h
  | cons event rest =>
    obtain ⟨middle, htaps, henters⟩ :=
      (@WindowHandle.handles_input desktop event agent).1
    refine ⟨?_, ?_, ?_, fun sent hsent => h.menu_unasked sent (List.mem_cons_of_mem _ hsent)⟩
    · refine (h.exact.of_taps (taps_arrive hsends.2 htaps) ?_).of_enters henters
      rintro item (rfl | rfl)
      · exact .inr h.menu_up
      · exact .inl rfl
    · exact (Request.results_mono _
        (WindowHandle.recorded_input hsends.1 event agent)).trans h.asked
    · refine eq_false_of_ne_true fun hmenu => ?_
      obtain hold | hasked := WindowHandle.recorded_of_handles
        (@WindowHandle.handles_input desktop event agent).1 hmenu
      · exact absurd (h.menu_up.symm.trans hold) nofun
      · exact h.menu_unasked event List.mem_cons_self hasked

theorem InSync.step {s : InputPair} (h : s.InSync) (move : Move) (hsends : move.Sends) :
    (s.step move).InSync := by
  cases move with
  | host event => exact h.host event
  | deliver desktop => exact h.deliver hsends

/-! ## Everything is released -/

/-- The move delivers an event. -/
def Move.delivers : Move → Bool
  | .host _ => false
  | .deliver _ => true

/-- The next `n` events leave nothing recorded. -/
structure Draining (n : Nat) (s : InputPair) : Prop where
  le_length : n ≤ s.inFlight.length
  drained : Request.results (s.requests.take n) s.agent.recorded = ∅

/-- What the presenter sends after that does not matter. -/
theorem Draining.host {n : Nat} {s : InputPair} (h : s.Draining n) (event : HostEvent) :
    (s.step (.host event)).Draining n where
  le_length := h.le_length.trans (by simp [InputPair.step])
  drained := by
    have hrequests : (s.step (.host event)).requests =
        s.requests ++ (event.forward s.host).1.map request := List.map_append
    rw [hrequests, List.take_append_of_le_length (by simpa [requests] using h.le_length)]
    exact h.drained

theorem Draining.deliver {n : Nat} {s : InputPair} (h : s.Draining (n + 1)) {desktop : Desktop}
    (hsends : desktop.SendsInput) : (s.step (.deliver desktop)).Draining n := by
  obtain ⟨host, inFlight, agent⟩ := s
  cases inFlight with
  | nil => exact absurd h.le_length (Nat.not_succ_le_zero n)
  | cons event rest =>
    refine ⟨Nat.le_of_succ_le_succ h.le_length, Set.subset_empty_iff.mp ?_⟩
    have hdrained : Request.results ((rest.map request).take n)
        ((request event).result agent.recorded) = ∅ := h.drained
    exact hdrained ▸ Request.results_mono _ (WindowHandle.recorded_input hsends event agent)

/-- As many deliveries as there are such events leave nothing recorded. -/
theorem Draining.run {moves : List Move} {s : InputPair} (hsends : ∀ move ∈ moves, move.Sends)
    (h : s.Draining (moves.countP Move.delivers)) : (run step s moves).agent.recorded = ∅ := by
  induction moves generalizing s with
  | nil => exact h.drained
  | cons move moves ih =>
    refine ih (fun other hother => hsends other (List.mem_cons_of_mem _ hother)) ?_
    cases move with
    | host event => exact Draining.host (by simpa [List.countP_cons, Move.delivers] using h) event
    | deliver desktop =>
      refine Draining.deliver (by simpa [List.countP_cons, Move.delivers] using h) ?_
      exact (hsends _ List.mem_cons_self).1

/-- The presenter has just released what it has forwarded. -/
theorem InSync.draining {s : InputPair} (h : s.InSync) {event : HostEvent}
    (hreleases : event.Releases s.host) :
    (s.step (.host event)).Draining (s.step (.host event)).inFlight.length where
  le_length := le_rfl
  drained := by
    have hpressed : pressed (event.forward s.host).2 = ∅ := by
      have hrelease := fun pointer => (requests_releaseEvents s.host pointer).2
      cases event with
      | focused observed pointer =>
        obtain rfl : observed = false := hreleases
        exact hrelease pointer
      | closeRequested pointer => exact hrelease pointer
      | aboutToWait now pointer =>
        have hexpired : s.host.leaseExpired now = true := hreleases
        simp only [HostEvent.forward]
        rw [if_pos hexpired]
        exact hrelease pointer
      | keyboardInput key down now => exact hreleases.elim
      | mouseInput button down x y now => exact hreleases.elim
      | cursorMoved x y now => exact hreleases.elim
      | mouseWheel delta horizontal x y now => exact hreleases.elim
    have hall : (s.step (.host event)).requests.take (s.step (.host event)).inFlight.length =
        (s.step (.host event)).requests := List.take_of_length_le (by simp [requests])
    rw [hall]
    exact Set.subset_empty_iff.mp ((h.host event).asked.trans hpressed.subset)

/-- What is not recorded is not held. -/
theorem InSync.held_eq_empty {s : InputPair} (h : s.InSync) (hnone : s.agent.recorded = ∅) :
    s.agent.held = ∅ :=
  Set.subset_empty_iff.mp (hnone ▸ h.exact.covered)

/-! ## Any run -/

/-- What is promised between any two moves. -/
structure Balanced (s : InputPair) : Prop where
  held_subset_recorded : s.agent.held ⊆ s.agent.recorded
  /-- What is recorded is held, but for Escape. -/
  recorded_subset_held : s.agent.recorded \ {escapeKey} ⊆ s.agent.held
  /-- What the agent records is recorded by the presenter, or its release is on its way. -/
  recorded_pressed : ∀ item ∈ s.agent.recorded,
    item ∈ pressed s.host ∨ ∃ event ∈ s.inFlight, (request event).Drops item
  /-- Nothing is released that is not held, but for Escape. -/
  released_held : Matched {escapeKey} s.agent.edges
  /-- Once the events on their way are handled after the presenter has released what it has
      forwarded, nothing is held. -/
  released : ∀ event : HostEvent, event.Releases s.host → ∀ more : List Move,
    (∀ move ∈ more, move.Sends) →
    more.countP Move.delivers = (s.step (.host event)).inFlight.length →
    (run step (s.step (.host event)) more).agent.held = ∅
  /-- After the focus is lost nothing is held. -/
  unfocused : ∀ desktop : Desktop, (Move.deliver desktop).Sends →
    s.inFlight.head? = some (.focus false) → (s.step (.deliver desktop)).agent.held = ∅

theorem inSync_run {s : InputPair} (h : s.InSync) {moves : List Move}
    (hsends : ∀ move ∈ moves, move.Sends) : (run step s moves).InSync :=
  run_invariant (fun _ move hsync hsend => hsync.step move hsend) h (along_of_forall_mem hsends)

/-- What is in step is balanced. -/
theorem InSync.balanced {s : InputPair} (h : s.InSync) : s.Balanced where
  held_subset_recorded := h.exact.covered
  recorded_subset_held item hitem := h.exact.holds_of_recorded item hitem.1 hitem.2
  recorded_pressed item hitem := by
    obtain hheld | ⟨asked, hasked, hdrops⟩ :=
      @Request.mem_results_or_drops _ s.requests item _ hitem
    · exact .inl (h.asked hheld)
    · obtain ⟨event, hevent, rfl⟩ := List.mem_map.mp hasked
      exact .inr ⟨event, hevent, hdrops⟩
  released_held := h.exact.matched
  released event hreleases more hsends hcount := by
    have hdrained : (run InputPair.step (s.step (.host event)) more).agent.recorded = ∅ :=
      Draining.run hsends (hcount ▸ h.draining hreleases)
    exact (inSync_run (h.host event) hsends).held_eq_empty hdrained
  unfocused desktop hsends hhead := by
    refine (h.deliver hsends).held_eq_empty ?_
    obtain ⟨host, inFlight, agent⟩ := s
    obtain ⟨rest, rfl⟩ : ∃ rest, inFlight = .focus false :: rest := List.head?_eq_some_iff.mp hhead
    refine Set.eq_empty_iff_forall_notMem.mpr fun item hitem => ?_
    exact absurd ((WindowHandle.recorded_cleared hsends.1 agent item).symm.trans hitem) nofun

/-- In every run of events at the host, forwarded and handled in order, in which every `SendInput`
    succeeds. -/
theorem forwarded_input_is_balanced (moves : List Move) (h : ∀ move ∈ moves, move.Sends) :
    (run step opened moves).Balanced :=
  (inSync_run inSync_opened h).balanced

/-! ## A shell surface -/

/-- A desktop whose shell surface is dismissed by a tap of Escape, or the window is the foreground
    from the start. -/
def shellDesktop (foreground : Bool) : Desktop :=
  { WindowHandle.menuTapDesktop (.ok ()) with
    foregroundActivated := fun attempt => .ok (foreground || decide (4 ≤ attempt))
    dismissibleWindowsShellSurface := true }

theorem shellDesktop_sends (foreground : Bool) : (Move.deliver (shellDesktop foreground)).Sends :=
  ⟨fun _ => rfl, fun _ pressed => by cases pressed <;> rfl⟩

/-- Escape is held, and another key is pressed while the Start menu has the foreground. -/
def escapeMoves : List Move :=
  [.host (.keyboardInput .escape true 0), .deliver (shellDesktop true),
    .host (.keyboardInput (.letter 0) true 0), .deliver (shellDesktop false)]

theorem escapeMoves_send : ∀ move ∈ escapeMoves, move.Sends := by
  simp only [escapeMoves, List.forall_mem_cons]
  exact ⟨trivial, shellDesktop_sends true, trivial, shellDesktop_sends false,
    List.forall_mem_nil _⟩

/-- The tap that dismisses the Start menu releases the Escape that the user holds. -/
theorem dismissal_releases_escape :
    ¬ ∀ moves : List Move, (∀ move ∈ moves, move.Sends) →
      (run step opened moves).agent.held = (run step opened moves).agent.recorded := by
  intro h
  have hsame := h escapeMoves escapeMoves_send
  have hrecorded : escapeKey ∈ (run step opened escapeMoves).agent.recorded := rfl
  have hheld : holds (run step opened escapeMoves).agent.edges escapeKey = true :=
    hsame.symm.subset hrecorded
  cases hheld

/-- The same moves leave what is promised. -/
theorem escape_moves_are_balanced : (run step opened escapeMoves).Balanced :=
  forwarded_input_is_balanced escapeMoves escapeMoves_send

end InputPair

end Lsw.Gui
