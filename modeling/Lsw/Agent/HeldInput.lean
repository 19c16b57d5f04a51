import Lsw.Agent.InputRecord
import Lsw.Lib.Run

/-!
# No Input Stays Down

Any `SendInput` may fail, and any check of the target.  What the agent has pressed is recorded all the
same, so that it can be released, as long as no tap of the activation loses its release alone: the
keys of a tap are not recorded.
-/

namespace Lsw.Agent

open Lsw.Lib Lsw.Lib.Traced Protocol Relation

namespace WindowHandle

/-! ## Runs -/

/-- What a window handle is asked for, with the answers of Windows. -/
inductive Call where
  | input (event : GuiInputEvent) (desktop : Desktop)
  | close (desktop : Desktop)
  | releaseInjectedInput (desktop : Desktop)

/-- The handling of a call: an error ends it, not the run. -/
def step (window : WindowHandle) : Call → WindowHandle
  | .input event desktop => (input desktop event window).state
  | .close desktop => (close desktop window).state
  | .releaseInjectedInput desktop => (releaseInjectedInput desktop window).state

/-- No tap loses its release when its press arrives, unless its key is recorded as pressed. -/
def TapsReleased (window : WindowHandle) : Call → Prop
  | .input _ desktop => ∀ item ∈ tappedKeys, tapArrives desktop true item = true →
      tapArrives desktop false item = false → window.injected.recorded item = true
  | .close _ | .releaseInjectedInput _ => True

/-- What is held is recorded, and when the release of everything succeeds nothing is held. -/
def Releasable (window : WindowHandle) : Prop :=
  window.held ⊆ window.recorded ∧
    ∀ desktop, (releaseInjectedInput desktop window).result = .ok () →
      (releaseInjectedInput desktop window).state.held = ∅

theorem covered_of_enters {window window' : WindowHandle} {asked : Set InjectedItem}
    (h : window.book.Covered) (henters : Enters asked window window') : window'.book.Covered :=
  h.of_enters henters

/-- The step lemma: a call keeps what is held recorded. -/
theorem step_covered {window : WindowHandle} {call : Call} (h : window.book.Covered)
    (hreleased : window.TapsReleased call) : (window.step call).book.Covered := by
  cases call with
  | input event desktop =>
    obtain ⟨middle, htaps, henters⟩ := (@handles_input desktop event window).1
    exact (h.of_taps htaps hreleased).of_enters henters
  | close desktop =>
    -- Closing a window sends no input.
    have hclose : Within (Enters ∅) (close desktop) :=
      (Within.ofExcept _).bind fun _ => .ofExcept _
    exact covered_of_enters h (hclose window).1
  | releaseInjectedInput desktop =>
    have hrelease : Within (Enters ∅) (releaseInjectedInput desktop) := .of_sat fun start =>
      (sat_releaseInjectedInput start).mono (fun _ => id) (fun _ _ h => h.1) fun _ h => h.1
    exact covered_of_enters h (hrelease window).1

theorem Releasable.of_covered {window : WindowHandle} (h : window.book.Covered) :
    window.Releasable := by
  refine ⟨h, fun desktop hok => Set.eq_empty_iff_forall_notMem.mpr fun item hitem => ?_⟩
  obtain ⟨henters, hrecord⟩ := (@sat_releaseInjectedInput desktop ∅ window).of_ok rfl hok
  exact absurd ((hrecord item).symm.trans (covered_of_enters h henters item hitem)) nofun

/-- In every run in which no tap loses its release alone, whatever else fails, what the agent has
    pressed is recorded, and nothing stays down once everything has been released. -/
theorem pressed_input_is_released (calls : List Call)
    (h : Along step TapsReleased .new calls) : (run step .new calls).Releasable := by
  have hstart : (new.book).Covered := fun item hitem => by cases hitem
  exact .of_covered (run_invariant (I := fun window => window.book.Covered)
    (fun window call hcovered hreleased => step_covered hcovered hreleased) hstart h)

/-! ## A lost release -/

/-- A desktop on which the window comes to the foreground after a tap of Alt, whose release may be
    lost. -/
def menuTapDesktop (released : WindowsResult Unit) : Desktop where
  validateIdentity _ := .ok ()
  foregroundBelongsToCapture _ := .ok true
  isWindow := true
  foregroundActivated attempt := .ok (decide (3 ≤ attempt))
  dismissibleWindowsShellSurface := false
  sendTap _ pressed := if pressed then .ok () else released
  captureToScreen := .ok none
  setCursorPos _ := .ok ()
  isMainWindow _ := true
  windowBelongsToCapture _ := .ok true
  nonClientAction := none
  pointerTargetIsValid _ := .ok true
  pointerTargetBelongsToCapture _ := .ok true
  absoluteVirtualDesktopPoint := .ok ()
  isZoomed := false
  post := .ok ()
  sendInput _ := .ok ()
  now := 0

/-- The focus arrives, and the release of the tap is lost: Alt stays down. -/
theorem lost_release_leaves_alt_down :
    ¬ (run step .new
      [.input (.focus true) (menuTapDesktop (.error ⟨5, "Access is denied."⟩))]).Releasable := by
  intro h
  have hheld : InjectedItem.key ⟨vkMenu, 0, false⟩ ∈ (run step .new
      [.input (.focus true) (menuTapDesktop (.error ⟨5, "Access is denied."⟩))]).held := by
    rfl
  have hrecorded := h.1 hheld
  cases hrecorded

/-- A tap that arrives, and a key that is pressed. -/
theorem tapped_input_is_released :
    (run step .new [.input (.focus true) (menuTapDesktop (.ok ())),
      .input (.key 65 0 true false) (menuTapDesktop (.ok ()))]).Releasable :=
  have hreleased : ∀ item ∈ tappedKeys, tapArrives (menuTapDesktop (.ok ())) false item ≠ false := by
    rintro item (rfl | rfl) <;> nofun
  pressed_input_is_released _ ⟨fun item hitem _ hlost => absurd hlost (hreleased item hitem),
    fun item hitem _ hlost => absurd hlost (hreleased item hitem), trivial⟩

end WindowHandle

end Lsw.Agent
