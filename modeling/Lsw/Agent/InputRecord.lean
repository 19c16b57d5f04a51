import Lsw.Agent.WindowInput
import Lsw.Lib.Vec

/-!
# What the Handling of Input Does to the Record

However the handling of an event goes, it does two things to the book of the window: activation taps
keys, and then the event enters edges.  An event enters a press only of the item it is about.  What a
release, or the release of everything, leaves recorded is said separately.
-/

namespace Lsw.Agent

open Lsw.Lib Lsw.Lib.Traced Protocol Relation

/-! ## The record of an item -/

namespace InjectedInputState

variable (state : InjectedInputState)

@[simp] theorem recorded_notePress (virtualKey : UInt16) :
    (state.notePress virtualKey).recorded = state.recorded := by
  funext item
  cases item <;> rfl

@[simp] theorem recorded_noteRelease (now : Nat) (virtualKey : UInt16) :
    (state.noteRelease now virtualKey).recorded = state.recorded := by
  rw [noteRelease]
  split
  · rfl
  · exact state.recorded_notePress virtualKey

theorem recorded_addKey (key : InjectedKey) :
    (state.addKey key).recorded = Function.update state.recorded (.key key) true := by
  funext item
  rw [Function.update_apply, addKey]
  cases item with
  | key other =>
    by_cases hkey : other = key <;> by_cases hmem : key ∈ state.keys <;>
      simp_all [recorded]
  | button other => split <;> exact (if_neg nofun).symm

theorem recorded_retainOthers (key : InjectedKey) :
    (state.retainOthers key).recorded = Function.update state.recorded (.key key) false := by
  funext item
  rw [Function.update_apply]
  cases item with
  | key other => by_cases hkey : other = key <;> simp [recorded, retainOthers, hkey]
  | button other => exact (if_neg nofun).symm

/-- The key at the first place where it stands is the only one: it is recorded no more. -/
theorem recorded_removeKeyAt {key : InjectedKey} {index : Nat}
    (h : state.keys.findIdx? (· == key) = some index) :
    (state.removeKeyAt index).recorded = Function.update state.recorded (.key key) false := by
  have herase : state.keys.eraseIdx index = state.keys.erase key := (eraseIdx_of_findIdx? h).2
  funext item
  rw [Function.update_apply]
  cases item with
  | key other =>
    by_cases hkey : other = key
    · simp [recorded, removeKeyAt, herase, hkey, state.keys_nodup.mem_erase_iff]
    · simp [recorded, removeKeyAt, herase, hkey, List.mem_erase_of_ne]
  | button other => exact (if_neg nofun).symm

theorem pointerButtonIndex_injective {button other : GuiPointerButton}
    (h : pointerButtonIndex button = pointerButtonIndex other) : button = other := by
  revert h
  cases button <;> cases other <;> decide

/-- Setting a button changes its own entry of the record. -/
theorem recorded_setButton (button : GuiPointerButton) (pressed : Bool) :
    (state.setButton button pressed).recorded =
      Function.update state.recorded (.button button) pressed := by
  funext item
  rw [Function.update_apply]
  cases item with
  | key key => exact (if_neg nofun).symm
  | button other =>
    by_cases hbutton : other = button
    · simp [recorded, InjectedInputState.button, setButton, hbutton]
    · have hindex : (pointerButtonIndex button).val ≠ (pointerButtonIndex other).val := fun h =>
        hbutton (pointerButtonIndex_injective (Fin.ext h)).symm
      simp [recorded, InjectedInputState.button, setButton, hbutton,
        Vector.getElem_set_ne _ _ hindex]

end InjectedInputState

namespace WindowHandle

/-- The edges that were sent, and the record. -/
def book (window : WindowHandle) : Book InjectedItem := ⟨window.injected.recorded, window.edges⟩

/-- The window after an input was sent and the record was changed. -/
def after (inputs : List NativeInput) (f : InjectedInputState → InjectedInputState)
    (window : WindowHandle) : WindowHandle :=
  ⟨f window.injected, window.sent ++ inputs⟩

theorem edges_after (inputs : List NativeInput) (f : InjectedInputState → InjectedInputState)
    (window : WindowHandle) :
    (window.after inputs f).edges = window.edges ++ inputs.filterMap (·.edge) :=
  List.filterMap_append

/-- An edge is sent and entered. -/
theorem book_after_enter {inputs : List NativeInput} {f : InjectedInputState → InjectedInputState}
    {window : WindowHandle} {edge : Edge InjectedItem}
    (hedge : inputs.filterMap (·.edge) = [edge])
    (hrecord : (f window.injected).recorded =
      Function.update window.injected.recorded edge.item edge.down) :
    (window.after inputs f).book = window.book.enter edge := by
  rw [book, edges_after, hedge]
  exact congrArg (fun recorded => Book.mk recorded _) hrecord

/-- An edge is sent. -/
theorem book_after_send {inputs : List NativeInput} {window : WindowHandle}
    {edge : Edge InjectedItem} (hedge : inputs.filterMap (·.edge) = [edge]) :
    (window.after inputs id).book = window.book.send edge := by
  rw [book, edges_after, hedge]
  rfl

theorem edge_keyboard (key : InjectedKey) (pressed : Bool) :
    [keyboard key pressed].filterMap (·.edge) = [⟨.key key, pressed⟩] := by
  simp [keyboard, NativeInput.edge]

theorem edge_pointerDownAt (button : GuiPointerButton) :
    (pointerDownAt (buttonFlags button).1 (buttonFlags button).2.2).filterMap (·.edge) =
      [⟨.button button, true⟩] := by
  cases button <;> rfl

theorem edge_buttonUp (button : GuiPointerButton) :
    [NativeInput.mouse (buttonFlags button).2.1 (buttonFlags button).2.2].filterMap (·.edge) =
      [⟨.button button, false⟩] := by
  cases button <;> rfl

/-- `release_injected_input` releases the buttons that `input` presses. -/
theorem edge_releaseFlags (button : GuiPointerButton) :
    [NativeInput.mouse (releaseFlags button).1 (releaseFlags button).2].filterMap (·.edge) =
      [⟨.button button, false⟩] := by
  cases button <;> rfl

/-! ## Sending -/

section Sending

variable {P : WindowHandle → Prop} {E : WindowHandle → Prop} {outcome : WindowsResult Unit}
  {inputs : List NativeInput} {f : InjectedInputState → InjectedInputState}
  {A G : Empty → Prop}

/-- What is sent and entered arrives as a whole, or nothing happens. -/
theorem sat_inject {Q : WindowHandle → Prop}
    (hok : outcome = .ok () → ∀ window, P window → Q (window.after inputs f))
    (herror : ∀ e, outcome = .error e → ∀ window, P window → E window) :
    Sat A G P (inject outcome inputs f) (fun _ => Q) E := by
  cases outcome with
  | ok _ =>
    refine (Sat.pure (Q := fun _ => P) fun _ => id).bind fun _ =>
      (Sat.modify (Q := fun _ window => ∃ before, P before ∧
        window = { before with sent := before.sent ++ inputs }) fun window hwindow =>
          ⟨window, hwindow, rfl⟩).bind fun _ => .modify ?_
    rintro _ ⟨window, hwindow, rfl⟩
    exact hok rfl window hwindow
  | error e => exact (Sat.fail (herror e rfl)).bind fun _ => .of_false fun _ => id

/-- An attempt to send, with its outcome. -/
theorem sat_attempt_inject {Q : Except WindowsError Unit → WindowHandle → Prop}
    (hok : outcome = .ok () → ∀ window, P window → Q (.ok ()) (window.after inputs f))
    (herror : ∀ e, outcome = .error e → ∀ window, P window → Q (.error e) window) :
    Sat A G P (Traced.attempt (fun _ => false) (inject outcome inputs f)) Q E := by
  cases outcome with
  | ok _ =>
    exact (sat_inject (E := fun _ => False) (hok ·) (fun _ => nofun)).attempt
      (fun _ _ => False.elim) fun _ _ => nofun
  | error e =>
    intro window hwindow _
    exact ⟨fun event => event.elim, herror e rfl window hwindow⟩

end Sending

/-! ## Taps -/

section Taps

variable (desktop : Desktop)

/-- The keys that activation taps. -/
def tappedKeys : Set InjectedItem :=
  {.key ⟨vkMenu, 0, false⟩, .key ⟨vkEscape, 0, false⟩}

/-- Whether the press or the release of a tap arrives. -/
def tapArrives (pressed : Bool) : InjectedItem → Bool
  | .key key => (desktop.sendTap key.virtualKey pressed).toBool
  | .button _ => false

/-- Keys are tapped. -/
def Taps (window window' : WindowHandle) : Prop :=
  ReflTransGen (Book.Taps tappedKeys (tapArrives desktop true) (tapArrives desktop false))
    window.book window'.book

instance : Std.Refl (Taps desktop) := ⟨fun _ => .refl⟩

instance : IsTrans WindowHandle (Taps desktop) := ⟨fun _ _ _ => ReflTransGen.trans⟩

variable {desktop}

/-- A balanced tap is one tap, however its two calls end. -/
theorem taps_sendBalancedKeyTap {virtualKey : UInt16}
    (h : InjectedItem.key ⟨virtualKey, 0, false⟩ ∈ tappedKeys) :
    Within (Taps desktop) (sendBalancedKeyTap desktop virtualKey) := by
  refine .of_sat fun start => ?_
  -- The press, sent or not.
  have hpress : Sat (fun _ => True) (fun _ => True) (· = start)
      (Traced.attempt (fun _ => false) (inject (desktop.sendTap virtualKey true)
        [keyboard ⟨virtualKey, 0, false⟩ true] id))
      (fun _ window => window.book = start.book.tap (.key ⟨virtualKey, 0, false⟩)
        (desktop.sendTap virtualKey true).toBool false) (Taps desktop start) := by
    refine sat_attempt_inject (fun hsent window hstart => ?_) fun error herror window hstart => ?_
    · rw [book_after_send (edge_keyboard _ _), hsent, hstart]
      rfl
    · rw [herror, hstart]
      rfl
  -- The release, sent or not, whatever became of the press.
  have hrelease : Sat (fun _ => True) (fun _ => True)
      (fun window => window.book = start.book.tap (.key ⟨virtualKey, 0, false⟩)
        (desktop.sendTap virtualKey true).toBool false)
      (Traced.attempt (fun _ => false) (inject (desktop.sendTap virtualKey false)
        [keyboard ⟨virtualKey, 0, false⟩ false] id))
      (fun _ => Taps desktop start) (Taps desktop start) := by
    -- Together they are one tap in the book.
    have htap {window : WindowHandle} (hbook : window.book = start.book.tap
        (.key ⟨virtualKey, 0, false⟩) (desktop.sendTap virtualKey true).toBool
        (desktop.sendTap virtualKey false).toBool) : Taps desktop start window := by
      rw [Taps, hbook]
      exact .single (.tap h)
    refine sat_attempt_inject (fun hsent window hpressed => htap ?_)
      fun error herror window hpressed => htap ?_
    · rw [book_after_send (edge_keyboard _ _), hsent, hpressed]
      rfl
    · rw [herror, hpressed]
      rfl
  exact hpress.bind fun pressed => hrelease.bind fun released =>
    (Sat.ofExcept (fun _ _ _ => id) fun _ => id).bind fun _ =>
    .ofExcept (fun _ _ _ => id) fun _ => id

theorem taps_retryActivation (attempt left : Nat) :
    Within (Taps desktop) (retryActivation desktop attempt left) := by
  induction left generalizing attempt with
  | zero => exact .pure false
  | succ left ih => exact (Within.ofExcept _).bind fun _ => .ite (.pure true) (ih _)

/-- Activation taps keys and does nothing else to the book. -/
theorem taps_activateAndVerify : Within (Taps desktop) (activateAndVerify desktop) := by
  refine .ite (.fail _) ((Within.ofExcept _).bind fun _ => .ite (.pure _)
    ((Within.ofExcept _).bind fun _ => .ite (.pure _)
      ((Within.ofExcept _).bind fun _ => .ite (.pure _) ?_)))
  refine (taps_sendBalancedKeyTap (.inl rfl)).bind fun _ => (Within.ofExcept _).bind fun _ =>
    .ite (.pure _) (.ite (.pure _) ?_)
  exact (taps_sendBalancedKeyTap (.inr rfl)).bind fun _ => taps_retryActivation _ _

theorem taps_placePointerOnTarget : Within (Taps desktop) (placePointerOnTarget desktop) := by
  refine (Within.ofExcept _).bind fun _ => (Within.ofExcept _).bind fun target => ?_
  split
  · exact .pure none
  · refine (Within.ofExcept _).bind fun _ => (Within.ofExcept _).bind fun _ =>
      (Within.ofExcept _).bind fun belongs => ?_
    refine .ite ((Within.pure _).bind fun placed => ?_) ((Within.ofExcept _).bind fun placed => ?_)
    all_goals
      exact .ite (.pure _) (taps_activateAndVerify.bind fun _ => (Within.ofExcept _).bind fun _ =>
        (Within.ofExcept _).bind fun _ => (Within.ofExcept _).bind fun _ =>
        (Within.ofExcept _).bind fun _ => .pure _)

end Taps

/-! ## Entries -/

section Entries

variable {desktop : Desktop} {asked : Set InjectedItem}

/-- Edges are entered, presses of the items that are asked for only. -/
def Enters (asked : Set InjectedItem) (window window' : WindowHandle) : Prop :=
  ReflTransGen (Book.Enters asked) window.book window'.book

instance : Std.Refl (Enters asked) := ⟨fun _ => .refl⟩

instance : IsTrans WindowHandle (Enters asked) := ⟨fun _ _ _ => ReflTransGen.trans⟩

/-- Keys are tapped, and then edges are entered. -/
abbrev Handles (desktop : Desktop) (asked : Set InjectedItem) : WindowHandle → WindowHandle → Prop :=
  Comp (Taps desktop) (Enters asked)

/-- A part that taps keys comes before one that enters edges. -/
theorem Handles.of_enters {α : Type} {x : Handling α} (h : Within (Enters asked) x) :
    Within (Handles desktop asked) x :=
  h.mono fun window _ henters => ⟨window, .refl, henters⟩

theorem Handles.of_taps {α : Type} {x : Handling α} (h : Within (Taps desktop) x) :
    Within (Handles desktop asked) x :=
  h.mono fun _ window htaps => ⟨window, htaps, .refl⟩

/-- What holds of a window, and of every window that entries lead to. -/
def Lasts (asked : Set InjectedItem) (R : WindowHandle → Prop) : Prop :=
  ∀ window window', Enters asked window window' → R window → R window'

theorem lasts_enters (start : WindowHandle) : Lasts asked (Enters asked start) :=
  fun _ _ henters h => h.trans henters

theorem lasts_handles (start : WindowHandle) : Lasts asked (Handles desktop asked start) :=
  fun _ _ henters ⟨middle, htaps, h⟩ => ⟨middle, htaps, h.trans henters⟩

variable {R P : WindowHandle → Prop}

/-- The press of an item that is asked for is entered. -/
theorem sat_inject_press {outcome : WindowsResult Unit} {inputs : List NativeInput}
    {f : InjectedInputState → InjectedInputState} {item : InjectedItem} (hR : Lasts asked R)
    (hedge : inputs.filterMap (·.edge) = [⟨item, true⟩]) (hasked : item ∈ asked)
    (hrecord : ∀ state, (f state).recorded = Function.update state.recorded item true) :
    Sat (fun _ => True) (fun _ => True) R (inject outcome inputs f)
      (fun _ window => R window ∧ window.injected.recorded item = true) R := by
  refine sat_inject (fun _ window hwindow => ⟨?_, ?_⟩) fun _ _ _ => id
  · refine hR window _ ?_ hwindow
    rw [Enters, book_after_enter hedge (hrecord _)]
    exact .single (.press hasked)
  · change (f window.injected).recorded item = true
    rw [hrecord, Function.update_self]

/-- The release of an item that is recorded is entered. -/
theorem book_after_release {inputs : List NativeInput}
    {f : InjectedInputState → InjectedInputState} {item : InjectedItem} {window : WindowHandle}
    (hedge : inputs.filterMap (·.edge) = [⟨item, false⟩])
    (hrecord : (f window.injected).recorded =
      Function.update window.injected.recorded item false)
    (hrecorded : window.injected.recorded item = true) :
    Enters asked window (window.after inputs f) := by
  rw [Enters, book_after_enter hedge hrecord]
  exact .single (.release hrecorded)

/-- A release that is sent takes its item from the record; one that is not leaves it there. -/
theorem sat_inject_release {inputs : List NativeInput}
    {f : InjectedInputState → InjectedInputState} {item : InjectedItem} (hR : Lasts asked R)
    (hP : ∀ window, P window → R window)
    (hedge : inputs.filterMap (·.edge) = [⟨item, false⟩])
    (hrecord : ∀ window, P window → (f window.injected).recorded =
      Function.update window.injected.recorded item false)
    (hrecorded : ∀ window, P window → window.injected.recorded item = true) :
    Sat (fun _ => True) (fun _ => True) P (inject (desktop.sendInput inputs) inputs f)
      (fun _ window => R window ∧ window.injected.recorded item = false)
      (fun window => R window ∧ ¬ desktop.SendsInput) := by
  refine sat_inject (fun _ window hwindow => ⟨?_, ?_⟩) fun error herror window hwindow => ?_
  · exact hR window _ (book_after_release hedge (hrecord window hwindow)
      (hrecorded window hwindow)) (hP window hwindow)
  · change (f window.injected).recorded item = false
    rw [hrecord window hwindow, Function.update_self]
  · refine ⟨hP window hwindow, fun hsends => ?_⟩
    rw [hsends] at herror
    cases herror

/-- A key that is released is recorded no more. -/
theorem sat_releaseKey (key : InjectedKey) (start : WindowHandle) :
    Sat (fun _ => True) (fun _ => True) (· = start) (releaseKey desktop key)
      (fun _ window => Enters asked start window ∧ window.injected.recorded (.key key) = false)
      (fun window => Enters asked start window ∧ ¬ desktop.SendsInput) := by
  refine Sat.bind (Q := fun index window => window = start ∧
    index = start.injected.keys.findIdx? (· == key)) (.read fun window hwindow => ?_) fun index => ?_
  · exact ⟨hwindow, congrArg (fun window => window.injected.keys.findIdx? (· == key)) hwindow⟩
  refine .given fun hindex => ?_
  cases hfound : start.injected.keys.findIdx? (· == key) with
  | none =>
    rw [hindex, hfound]
    refine .pure fun window hwindow => ⟨hwindow ▸ .refl, ?_⟩
    have hmissing := List.findIdx?_eq_none_iff.mp hfound
    exact hwindow ▸ decide_eq_false fun hmem => by simpa using hmissing key hmem
  | some index =>
    rw [hindex, hfound]
    refine (sat_inject_release (lasts_enters start) (fun window hwindow => hwindow ▸ .refl)
      (edge_keyboard key false) (fun window hwindow => ?_) fun window hwindow => ?_).bind fun _ =>
      .pure fun _ => id
    · subst hwindow
      rw [InjectedInputState.recorded_noteRelease,
        InjectedInputState.recorded_removeKeyAt _ hfound]
    · exact hwindow ▸ decide_eq_true (eraseIdx_of_findIdx? hfound).1

theorem sat_injectButtonUp (button : GuiPointerButton) (hR : Lasts asked R)
    (hP : ∀ window, P window → R window)
    (hrecorded : ∀ window, P window → window.injected.recorded (.button button) = true) :
    Sat (fun _ => True) (fun _ => True) P (injectButtonUp desktop button)
      (fun _ window => R window ∧ window.injected.recorded (.button button) = false)
      (fun window => R window ∧ ¬ desktop.SendsInput) :=
  sat_inject_release hR hP (edge_buttonUp button)
    (fun window _ => by
      rw [InjectedInputState.recorded_noteRelease, InjectedInputState.recorded_setButton])
    hrecorded

/-- A button that is released is recorded no more. -/
theorem sat_releaseButton (button : GuiPointerButton) (start : WindowHandle) :
    Sat (fun _ => True) (fun _ => True) (· = start) (releaseButton desktop button)
      (fun _ window => Handles desktop asked start window ∧
        window.injected.recorded (.button button) = false)
      (fun window => Handles desktop asked start window ∧ ¬ desktop.SendsInput) := by
  refine Sat.bind (Q := fun recorded window => window = start ∧
    recorded = start.injected.button button) (.read fun window hwindow => ?_) fun recorded => ?_
  · exact ⟨hwindow, congrArg (fun window => window.injected.button button) hwindow⟩
  refine .given fun hrecorded => .ite (fun hup => ?_) fun hdown => ?_
  · refine .pure fun window hwindow => ⟨hwindow ▸ ⟨_, .refl, .refl⟩, ?_⟩
    have hstart : start.injected.recorded (.button button) = false := hrecorded.symm.trans hup
    exact hwindow ▸ hstart
  -- The taps of the activation leave the record alone.
  have hstart : start.injected.recorded (.button button) = true := by
    rw [hrecorded] at hdown
    exact eq_true_of_ne_false hdown
  have hplace : Sat (fun _ => True) (fun _ => True) (· = start)
      (Traced.attempt (fun _ => false) (placePointerOnTarget desktop))
      (fun _ => Taps desktop start)
      fun window => Handles desktop asked start window ∧ ¬ desktop.SendsInput :=
    ((taps_placePointerOnTarget.sat (P := Taps desktop start) fun _ _ htaps h => h.trans
      htaps).attempt (fun _ _ => id) fun _ _ => nofun).pre fun window hwindow => hwindow ▸ .refl
  refine hplace.bind fun _ => (sat_injectButtonUp button (lasts_handles start)
    (fun window htaps => ⟨window, htaps, .refl⟩) fun window htaps => ?_).bind fun _ =>
    .pure fun _ => id
  have hsame : window.injected.recorded = start.injected.recorded := Book.recorded_of_taps htaps
  rw [hsame, hstart]

/-- A press that is taken back is a press and a release. -/
theorem enters_pressClient {button : GuiPointerButton} (hasked : .button button ∈ asked) :
    Within (Enters asked) (pressClient desktop button) := by
  refine .of_sat fun start => Sat.pre (P := Enters asked start) ?_ fun window hwindow =>
    hwindow ▸ .refl
  -- Checks send nothing.
  have hcheck {α : Type} (result : WindowsResult α) : Sat (fun _ => True) (fun _ => True)
      (Enters asked start) (Traced.ofExcept result : Handling α) (fun _ => Enters asked start)
      (Enters asked start) := .ofExcept (fun _ _ _ => id) fun _ => id
  -- A press that is sent is recorded.
  have hpress : Sat (fun _ => True) (fun _ => True) (Enters asked start)
      (inject (desktop.sendInput (pointerDownAt (buttonFlags button).1 (buttonFlags button).2.2))
        (pointerDownAt (buttonFlags button).1 (buttonFlags button).2.2)
        fun state => (state.notePress (pointerButtonVirtualKey button)).setButton button true)
      (fun _ window => Enters asked start window ∧
        window.injected.recorded (.button button) = true) (Enters asked start) :=
    sat_inject_press (lasts_enters start) (edge_pointerDownAt button) hasked fun state => by
      rw [InjectedInputState.recorded_setButton, InjectedInputState.recorded_notePress]
  -- A release that is sent is of a recorded button.
  have hup : Sat (fun _ => True) (fun _ => True) (fun window => Enters asked start window ∧
      window.injected.recorded (.button button) = true) (injectButtonUp desktop button)
      (fun _ => Enters asked start) (Enters asked start) :=
    (sat_injectButtonUp button (lasts_enters start) (fun _ h => h.1) fun _ h => h.2).mono
      (fun _ => id) (fun _ _ h => h.1) fun _ h => h.1
  refine (hcheck _).bind fun _ => .ite (fun _ => .pure fun _ => id) fun _ => (hcheck _).bind fun _ =>
    (hcheck _).bind fun _ => .ite (fun _ => .pure fun _ => id) fun _ => (hcheck _).bind fun _ =>
    hpress.bind fun _ => ?_
  split
  · exact .pure fun _ h => h.1
  · exact hup.bind fun _ => .fail fun _ => id
  · exact (hup.attempt (Q := fun _ => Enters asked start) (fun _ _ => id) fun _ _ => nofun).bind
      fun _ => .fail fun _ => id

theorem enters_pressNonClient (hit : NonClientHitAction) :
    Within (Enters asked) (pressNonClient desktop hit) := by
  refine (Within.ofExcept _).bind fun _ => (Within.ofExcept _).bind fun _ => .ite (.pure _) ?_
  split
  · exact ((Within.ofExcept _).bind fun _ => (Within.ofExcept _).bind fun _ =>
      (Within.ofExcept _).bind fun _ => .pure _).bind fun _ => .pure _
  · exact ((Within.ofExcept _).bind fun _ => .ofExcept _).bind fun _ => .pure _
  · exact .pure _

theorem handles_pressButton {button : GuiPointerButton} (hasked : .button button ∈ asked) :
    Within (Handles desktop asked) (pressButton desktop button) := by
  refine taps_placePointerOnTarget.comp fun target => ?_
  split
  · exact .pure _
  · refine (Within.ofExcept _).bind fun _ => .ite ?_ (enters_pressClient hasked)
    split
    · exact enters_pressNonClient _
    · exact enters_pressClient hasked

theorem handles_pressKey {key : InjectedKey} (hasked : .key key ∈ asked) :
    Within (Handles desktop asked) (pressKey desktop key) := by
  refine Within.comp_left (Within.ofExcept _) fun _ => taps_activateAndVerify.comp fun _ =>
    .ite (.pure _) ?_
  refine (Within.ofExcept _).bind fun _ => (Within.ofExcept _).bind fun _ => .ite (.pure _) ?_
  refine Within.bind (.of_sat fun start => ?_) fun _ => .pure _
  refine ((sat_inject_press (lasts_enters start) (edge_keyboard key true) hasked fun state => ?_).mono
    (fun window hwindow => hwindow ▸ .refl) (fun _ _ h => h.1) fun _ => id)
  rw [InjectedInputState.recorded_addKey, InjectedInputState.recorded_notePress]

theorem handles_pointerMove (x y : UInt32) :
    Within (Handles desktop asked) (pointerMove desktop x y) := by
  refine Handles.of_taps (taps_placePointerOnTarget.bind fun target => ?_)
  split
  · exact .pure _
  · refine .ite (.pure _) ((Within.ofExcept _).bind fun _ => .ite (.pure _)
      ((Within.ofExcept _).bind fun _ => .ite (.pure _) ((Within.ofExcept _).bind fun _ => ?_)))
    split
    · exact .pure _
    · exact .pure _

/-- The wheel taps keys at most, and presses nothing, whatever is asked for. -/
theorem handles_pointerWheel (delta : Int16) (horizontal : Bool) :
    Within (Handles desktop asked) (pointerWheel desktop delta horizontal) := by
  refine Handles.of_taps (taps_placePointerOnTarget.bind fun target => ?_)
  split
  · exact .pure _
  · refine (Within.ofExcept _).bind fun _ => .ite (.pure _) ((Within.ofExcept _).bind fun _ =>
      (Within.ofExcept _).bind fun _ => .ite (.pure _) (Within.bind (.of_sat fun start => ?_)
        fun _ => .pure _))
    -- A turn of the wheel is no edge.
    refine sat_inject (fun _ window hwindow => ?_) fun _ _ window hwindow => hwindow ▸ .refl
    have hbook : (window.after [.mouse (if horizontal then .hwheel else .wheel)
        delta.toInt32.toUInt32] id).book = window.book := by
      rw [book, edges_after]
      cases horizontal <;> simp [NativeInput.edge, after, book]
    rw [Taps, hbook, hwindow]

/-! ### The release of everything -/

/-- The keys that the loop has not come to are recorded.  As long as there was no error they are all
    that is. -/
structure ReleasingKeys (R : WindowHandle → Prop) (firstError : Option WindowsError)
    (keys : List InjectedKey) (window : WindowHandle) : Prop where
  lasts : R window
  nodup : keys.Nodup
  recorded : ∀ key ∈ keys, key ∈ window.injected.keys
  only : firstError = none → ∀ key ∈ window.injected.keys, key ∈ keys

/-- The loop over the keys: without an error none of them is recorded any more, and there is none
    when every `SendInput` succeeds. -/
theorem sat_releaseKeys (hR : Lasts asked R) (firstError : Option WindowsError)
    (keys : List InjectedKey) :
    Sat (fun _ => True) (fun _ => True) (ReleasingKeys R firstError keys)
      (releaseKeys desktop firstError keys)
      (fun error window => (R window ∧ (error = none → window.injected.keys = [])) ∧
        (desktop.SendsInput → error = firstError))
      (fun _ => False) := by
  -- Over the keys that are still to be released.
  induction keys generalizing firstError with
  | nil =>
    refine .pure fun window h => ⟨⟨h.lasts, fun hnone => ?_⟩, fun _ => rfl⟩
    exact List.eq_nil_iff_forall_not_mem.mpr fun key hkey => by simpa using h.only hnone key hkey
  | cons key keys ih =>
    -- One release; the loop goes on whether or not it works.
    have hattempt : Sat (fun _ => True) (fun _ => True) (ReleasingKeys R firstError (key :: keys))
        (Traced.attempt (fun _ => false) (inject (desktop.sendInput [keyboard key false])
          [keyboard key false]
          fun state => (state.retainOthers key).noteRelease desktop.now key.virtualKey))
        (fun result window => match result with
          | .ok _ => ReleasingKeys R firstError keys window
          | .error error => ReleasingKeys R (firstError <|> some error) keys window ∧
            ¬ desktop.SendsInput) (fun _ => False) := by
      refine sat_attempt_inject (fun _ window h => ?_) fun error herror window h => ?_
      -- It works: the key leaves the record.
      · have hkeys : (window.after [keyboard key false] fun state =>
            (state.retainOthers key).noteRelease desktop.now key.virtualKey).injected.keys =
            window.injected.keys.filter (· ≠ key) := by
          simp only [after, InjectedInputState.noteRelease]
          split <;> rfl
        have hheld : window.injected.recorded (.key key) = true :=
          decide_eq_true (h.recorded key List.mem_cons_self)
        refine ⟨hR window _ (book_after_release (edge_keyboard key false) ?_ hheld) h.lasts,
          (List.nodup_cons.mp h.nodup).2, fun other hother => ?_, fun hnone other hother => ?_⟩
        · rw [InjectedInputState.recorded_noteRelease, InjectedInputState.recorded_retainOthers]
        · rw [hkeys]
          have hne : other ≠ key := fun heq => (List.nodup_cons.mp h.nodup).1 (heq ▸ hother)
          simpa [hne] using h.recorded other (List.mem_cons_of_mem _ hother)
        · rw [hkeys] at hother
          obtain ⟨hmem, hne⟩ := List.mem_filter.mp hother
          exact (List.mem_cons.mp (h.only hnone other hmem)).resolve_left (by simpa using hne)
      -- It fails: the key stays in the record, and the first error is kept.
      · refine ⟨⟨h.lasts, (List.nodup_cons.mp h.nodup).2, fun other hother =>
          h.recorded other (List.mem_cons_of_mem _ hother), fun hnone => ?_⟩, fun hsends => ?_⟩
        · cases firstError <;> cases hnone
        · rw [hsends] at herror
          cases herror
    refine hattempt.bind fun result => ?_
    cases result with
    | ok _ => exact ih firstError
    -- With an input that is always sent there is no such error.
    | error error =>
      refine .given fun hsends => (ih _).mono (fun _ => id) (fun _ _ h => ⟨h.1, ?_⟩) fun _ => id
      exact fun hall => absurd hall hsends

/-- The buttons that the loop has come to are up, and the keys are, as long as there was no error. -/
structure ReleasingButtons (R : WindowHandle → Prop) (firstError : Option WindowsError)
    (buttons : List GuiPointerButton) (window : WindowHandle) : Prop where
  lasts : R window
  keys : firstError = none → window.injected.keys = []
  only : firstError = none → ∀ button, window.injected.button button = true → button ∈ buttons

/-- The loop over the buttons, after the keys: without an error nothing is recorded any more. -/
theorem sat_releaseButtons (hR : Lasts asked R) (firstError : Option WindowsError)
    (buttons : List GuiPointerButton) :
    Sat (fun _ => True) (fun _ => True) (ReleasingButtons R firstError buttons)
      (releaseButtons desktop firstError buttons)
      (fun error window => (R window ∧
        (error = none → ∀ item, window.injected.recorded item = false)) ∧
        (desktop.SendsInput → error = firstError))
      (fun _ => False) := by
  -- Over the buttons that are still to be released.
  induction buttons generalizing firstError with
  -- All have been tried: with no error none is recorded, and no key was before.
  | nil =>
    refine .pure fun window h => ⟨⟨h.lasts, fun hnone item => ?_⟩, fun _ => rfl⟩
    cases item with
    | key key => exact decide_eq_false (by simp [h.keys hnone])
    | button button =>
      exact eq_false_of_ne_true fun hdown => List.not_mem_nil (h.only hnone button hdown)
  | cons button buttons ih =>
    refine Sat.bind (Q := fun down window => ReleasingButtons R firstError (button :: buttons)
      window ∧ window.injected.button button = down) (.read fun _ h => ⟨h, rfl⟩) fun down => ?_
    -- A button that is not down is passed over.
    refine .ite (fun hup => (ih firstError).pre fun window h => ?_) fun hdown => ?_
    · refine ⟨h.1.lasts, h.1.keys, fun hnone other hother => ?_⟩
      refine (List.mem_cons.mp (h.1.only hnone other hother)).resolve_left fun heq => ?_
      rw [heq, h.2, hup] at hother
      cases hother
    -- One that is down is released; the record follows if the call works.
    have hattempt : Sat (fun _ => True) (fun _ => True)
        (fun window => ReleasingButtons R firstError (button :: buttons) window ∧
          window.injected.button button = down)
        (Traced.attempt (fun _ => false)
          (inject (desktop.sendInput [.mouse (releaseFlags button).1 (releaseFlags button).2])
            [.mouse (releaseFlags button).1 (releaseFlags button).2]
            fun state => (state.setButton button false).noteRelease desktop.now
              (pointerButtonVirtualKey button)))
        (fun result window => match result with
          | .ok _ => ReleasingButtons R firstError buttons window
          | .error error => ReleasingButtons R (firstError <|> some error) buttons window ∧
            ¬ desktop.SendsInput) (fun _ => False) := by
      refine sat_attempt_inject (fun _ window h => ?_) fun error herror window h => ?_
      -- The release goes through: the button leaves the record, the others stay.
      · have hrecord : ((window.injected.setButton button false).noteRelease desktop.now
            (pointerButtonVirtualKey button)).recorded =
            Function.update window.injected.recorded (.button button) false := by
          rw [InjectedInputState.recorded_noteRelease, InjectedInputState.recorded_setButton]
        refine ⟨hR window _ (book_after_release (edge_releaseFlags button) hrecord ?_) h.1.lasts,
          fun hnone => ?_, fun hnone other hother => ?_⟩
        · exact h.2.trans (eq_true_of_ne_false hdown)
        · simp only [after, InjectedInputState.noteRelease]
          split <;> exact h.1.keys hnone
        · have hother' := (congrFun hrecord (.button other)).symm.trans hother
          rw [Function.update_apply] at hother'
          by_cases heq : other = button
          · simp [heq] at hother'
          · rw [if_neg (by simpa using heq)] at hother'
            exact (List.mem_cons.mp (h.1.only hnone other hother')).resolve_left heq
      -- It does not: the record stays, and an error is noted.
      · refine ⟨⟨h.1.lasts, fun hnone => ?_, fun hnone => ?_⟩, fun hsends => ?_⟩
        · cases firstError <;> cases hnone
        · cases firstError <;> cases hnone
        · rw [hsends] at herror
          cases herror
    refine hattempt.bind fun result => ?_
    cases result with
    | ok _ => exact ih firstError
    -- With an input that is always sent there is no such error.
    | error error =>
      refine .given fun hsends => (ih _).mono (fun _ => id) (fun _ _ h => ⟨h.1, ?_⟩) fun _ => id
      exact fun hall => absurd hall hsends

/-- The release of everything: when it succeeds nothing is recorded, and it succeeds when every
    `SendInput` does. -/
theorem sat_releaseInjectedInput (start : WindowHandle) :
    Sat (fun _ => True) (fun _ => True) (· = start) (releaseInjectedInput desktop)
      (fun _ window => Enters asked start window ∧
        ∀ item, window.injected.recorded item = false)
      (fun window => Enters asked start window ∧ ¬ desktop.SendsInput) := by
  refine Sat.bind (Q := fun keys window => window = start ∧ keys = start.injected.keys)
    (.read fun window hwindow => ⟨hwindow, congrArg (·.injected.keys) hwindow⟩) fun keys =>
    .given fun hkeys => ?_
  -- First the keys, in the order opposite to that of their presses.
  have hreleasing : Sat (fun _ => True) (fun _ => True) (· = start)
      (releaseKeys desktop none keys.reverse)
      (fun error window => (Enters asked start window ∧ (error = none → window.injected.keys = [])) ∧
        (desktop.SendsInput → error = none)) (fun _ => False) := by
    refine (sat_releaseKeys (lasts_enters start) none keys.reverse).pre fun window hwindow => ?_
    subst hwindow hkeys
    exact ⟨.refl, List.nodup_reverse.mpr window.injected.keys_nodup,
      fun key hkey => List.mem_reverse.mp hkey, fun _ key hkey => List.mem_reverse.mpr hkey⟩
  refine (hreleasing.weaken fun _ => False.elim).bind fun firstError => .given fun hfirst => ?_
  -- Then the buttons; the first error of both is kept.
  have hbuttons : Sat (fun _ => True) (fun _ => True) (fun window => Enters asked start window ∧
        (firstError = none → window.injected.keys = []))
      (releaseButtons desktop firstError [.left, .middle, .right, .back, .forward])
      (fun error window => (Enters asked start window ∧
        (error = none → ∀ item, window.injected.recorded item = false)) ∧
        (desktop.SendsInput → error = firstError)) (fun _ => False) :=
    (sat_releaseButtons (lasts_enters start) firstError _).pre fun window h =>
      ⟨h.1, h.2, fun _ button _ => by cases button <;> simp⟩
  refine (hbuttons.weaken fun _ => False.elim).bind fun lastError => .given fun hlast => ?_
  cases lastError with
  -- Without an error nothing is recorded any more.
  | none => exact .pure fun window h => ⟨h.1, h.2 rfl⟩
  | some error =>
    -- With one, some input was not sent.
    refine .fail fun window h => ⟨h.1, fun hsends => ?_⟩
    have hnone := (hlast hsends).trans (hfirst hsends)
    cases hnone

/-! ## An event -/

/-- What an event asks for. -/
def request : GuiInputEvent → Request InjectedItem
  | .focus focused => if focused then .other else .clear
  | .key virtualKey scanCode pressed extended =>
    let item := InjectedItem.key ⟨virtualKey, scanCode, extended⟩
    if pressed then .press item else .release item
  | .pointerButton button pressed _ _ =>
    if pressed then .press (.button button) else .release (.button button)
  | .pointerMove _ _ | .pointerWheel _ _ _ _ => .other

/-- The items that an event may press. -/
def asks (event : GuiInputEvent) : Set InjectedItem :=
  {item | request event = .press item}

/-- However it goes, the handling of an event taps keys and then enters edges, presses of what the
    event asks for only. -/
theorem handles_input (event : GuiInputEvent) :
    Within (Handles desktop (asks event)) (input desktop event) := by
  -- One case for each event, pressed or released.
  cases event with
  | focus focused =>
    cases focused with
    | true =>
      exact Handles.of_taps ((Within.ofExcept _).bind fun _ => taps_activateAndVerify.bind fun _ =>
        (Within.ofExcept _).bind fun _ => .pure _)
    | false =>
      refine Handles.of_enters (Within.bind (.of_sat fun start => ?_) fun _ => .pure _)
      exact (sat_releaseInjectedInput start).mono (fun _ => id) (fun _ _ h => h.1) fun _ h => h.1
  | key virtualKey scanCode pressed extended =>
    cases pressed with
    | true => exact handles_pressKey (by simp [asks, request])
    | false =>
      refine Handles.of_enters (.of_sat fun start => ?_)
      exact (sat_releaseKey _ start).mono (fun _ => id) (fun _ _ h => h.1) fun _ h => h.1
  | pointerMove x y => exact handles_pointerMove x y
  | pointerButton button pressed x y =>
    cases pressed with
    | true => exact handles_pressButton (by simp [asks, request])
    | false =>
      refine .of_sat fun start => ?_
      exact (sat_releaseButton _ start).mono (fun _ => id) (fun _ _ h => h.1) fun _ h => h.1
  | pointerWheel delta horizontal x y => exact handles_pointerWheel delta horizontal

/-- Only what is asked for is recorded anew. -/
theorem recorded_of_handles {window window' : WindowHandle}
    (h : Handles desktop asked window window') : window'.recorded ⊆ window.recorded ∪ asked := by
  intro item hitem
  obtain ⟨middle, htaps, henters⟩ := h
  have hsame : middle.injected.recorded = window.injected.recorded := Book.recorded_of_taps htaps
  obtain hrecorded | hasked := Book.recorded_of_enters henters hitem
  · exact .inl ((congrFun hsame item).symm.trans hrecorded)
  · exact .inr hasked

/-- A call that ends in an error only if a `SendInput` does not succeed. -/
theorem state_of_sends {α : Type} {x : Handling α} {Q S : WindowHandle → Prop}
    (hsends : desktop.SendsInput) {window : WindowHandle}
    (h : Sat (fun _ => True) (fun _ => True) (· = window) x (fun _ => Q)
      fun window => S window ∧ ¬ desktop.SendsInput) : Q (x window).state :=
  (h.weaken fun _ hfailed => absurd hsends hfailed.2).state rfl

/-- The release of an item that is asked for leaves it unrecorded. -/
theorem recorded_released (hsends : desktop.SendsInput) {event : GuiInputEvent}
    {item : InjectedItem} (h : request event = .release item) (window : WindowHandle) :
    (input desktop event window).state.injected.recorded item = false := by
  cases event with
  | focus focused => cases focused <;> cases h
  | key virtualKey scanCode pressed extended =>
    cases pressed with
    | true => cases h
    | false =>
      cases h
      exact state_of_sends hsends ((@sat_releaseKey desktop ∅ _ window).mono (fun _ => id)
        (fun _ _ h => h.2) fun _ => id)
  | pointerMove x y => cases h
  | pointerButton button pressed x y =>
    cases pressed with
    | true => cases h
    | false =>
      cases h
      exact state_of_sends hsends ((@sat_releaseButton desktop ∅ _ window).mono (fun _ => id)
        (fun _ _ h => h.2) fun _ => id)
  | pointerWheel delta horizontal x y => cases h

/-- After the focus is lost nothing is recorded. -/
theorem recorded_cleared (hsends : desktop.SendsInput) (window : WindowHandle)
    (item : InjectedItem) :
    (input desktop (.focus false) window).state.injected.recorded item = false := by
  have hrelease := @sat_releaseInjectedInput desktop ∅ window
  refine state_of_sends (Q := fun window => window.injected.recorded item = false) hsends
    (hrelease.bind fun _ => .pure fun window h => h.2 item)

/-- When every `SendInput` succeeds, what is recorded after an event is no more than what is recorded
    when the event is met. -/
theorem recorded_input (hsends : desktop.SendsInput) (event : GuiInputEvent)
    (window : WindowHandle) :
    (input desktop event window).state.recorded ⊆ (request event).result window.recorded := by
  -- An event records at most the item that it asks for.
  have hgrows := recorded_of_handles (@handles_input desktop event window).1
  intro item hitem
  cases hrequest : request event with
  -- A press.
  | press other =>
    obtain hrecorded | hasked := hgrows hitem
    · exact .inr hrecorded
    · rw [asks, hrequest] at hasked
      exact .inl (Request.press.inj hasked).symm
  -- A release, after which its item is not recorded any more.
  | release other =>
    obtain hrecorded | hasked := hgrows hitem
    · refine ⟨hrecorded, fun heq => ?_⟩
      have hup := recorded_released hsends hrequest window
      rw [← Set.mem_singleton_iff.mp heq] at hup
      exact absurd (hup.symm.trans hitem) nofun
    · rw [asks, hrequest] at hasked
      cases hasked
  -- Only the loss of the focus clears the record.
  | clear =>
    obtain rfl : event = .focus false := by
      cases event with
      | focus focused => cases focused <;> first | rfl | cases hrequest
      | key virtualKey scanCode pressed extended => cases pressed <;> cases hrequest
      | pointerMove x y => cases hrequest
      | pointerButton button pressed x y => cases pressed <;> cases hrequest
      | pointerWheel delta horizontal x y => cases hrequest
    exact absurd ((recorded_cleared hsends window item).symm.trans hitem) nofun
  | other =>
    obtain hrecorded | hasked := hgrows hitem
    · exact hrecorded
    · rw [asks, hrequest] at hasked
      cases hasked

end Entries

end WindowHandle

end Lsw.Agent
