import Lsw.Agent.GuiDamage

/-!
# A Seamless-Window Session, End to End

The guest captures a window and streams it (`gui_stream.rs`): a Ready message for the
first frame and for every size change, then the tiles the damage tracker reports.  The
host opens its framebuffer on the first Ready (`present`), resizes it on later ones and
applies each damage message (`presenter/mod.rs`).  Every message crosses the wire as the
bytes of its codec.

The two sides share no state.  `Synced` relates them after a frame: the host shows the
frame the tracker remembers, and its sequence number is not ahead of the tracker's.
-/

namespace Lsw.Gui

open Lsw.Lib
open Lsw.Protocol
open Lsw.Agent
open Lsw.Presenter

/-! ## The two parties -/

/-- `MAX_WINDOW_TITLE_UNITS`. -/
def maxWindowTitleUnits : Nat := 4096

/-- A message on the wire: the frame kind and the encoded payload. -/
inductive GuiFrame where
  | ready (payload : Bytes)
  | damage (payload : Bytes)

/-- The window a session is pinned to.  Windows gives no window the identifier zero and no
    window belongs to process zero. -/
structure PinnedWindow where
  processId : UInt32
  windowId : UInt64
  processId_ne_zero : processId ≠ 0
  windowId_ne_zero : windowId ≠ 0

/-- One capture: the frame, and the title the window has when it is taken.  `window_title`
    reads at most `MAX_WINDOW_TITLE_UNITS` UTF-16 units, of at most three bytes each. -/
structure Capture extends Agent.Frame where
  title : String
  title_le : (utf8Bytes title).length ≤ 3 * maxWindowTitleUnits

/-- The locals of `stream_selected_gui_window`: the size last announced, if any, and the
    tracker. -/
structure AgentSession where
  size : Option (UInt32 × UInt32) := none
  damage : DamageTracker := {}

/-- What a step of the session fails with. -/
inductive StreamError where
  | protocol (e : ProtocolError)
  | presenter (reason : String)

/-- `window.ready(window_process_id, width, height)`. -/
def PinnedWindow.ready (window : PinnedWindow) (capture : Capture) : GuiWindowReady where
  processId := window.processId
  windowId := window.windowId
  width := capture.width
  height := capture.height
  title := capture.title

/-- The `?` that turns a codec's error into the session's. -/
def ofCodec {α : Type} : Except ProtocolError α → Exec StreamError α
  | .ok a => .ok a
  | .error e => .error (.error (.protocol e))

/-- A tracker call of the agent. -/
def ofAgent {α : Type} : Exec ProtocolError α → Exec StreamError α
  | .ok a => .ok a
  | .error (.error e) => .error (.error (.protocol e))
  | .error .panic => .error .panic

/-- A framebuffer call of the presenter. -/
def ofPresenter {α : Type} : Exec String α → Exec StreamError α
  | .ok a => .ok a
  | .error (.error reason) => .error (.error (.presenter reason))
  | .error .panic => .error .panic

/-- The Ready message of a frame: sent for the first frame and when the size changes. -/
def sendReady (window : PinnedWindow) (agent : AgentSession) (capture : Capture) :
    Exec StreamError (List GuiFrame) :=
  if agent.size = some (capture.width, capture.height) then return []
  else return [.ready (← ofCodec (window.ready capture).encode)]

/-- `send_damages`. -/
def sendDamages (damages : List GuiWindowDamage) : Exec StreamError (List GuiFrame) :=
  forEach damages (fun sent damage =>
    return sent ++ [.damage (← ofCodec damage.encode)]) []

/-- What the agent does with one captured frame. -/
def sendFrame (window : PinnedWindow) (agent : AgentSession) (capture : Capture) :
    Exec StreamError (AgentSession × List GuiFrame) := do
  let ready ← sendReady window agent capture
  let (damage, damages) ← ofAgent
    (agent.damage.update capture.width capture.height capture.bgra)
  let sent ← sendDamages damages
  return ({ size := some (capture.width, capture.height), damage }, ready ++ sent)

/-- What the host does with one message: `open_gui_window` and `present` on the first
    one, `read_event` and the presenter's event handler on the others. -/
def receiveFrame : Option FrameState → GuiFrame → Exec StreamError (Option FrameState)
  | none, .ready payload => do
    return some (← ofPresenter (FrameState.new (← ofCodec (GuiWindowReady.decode payload))))
  | none, .damage _ =>
    .error (.error (.presenter "agent returned an invalid seamless GUI response"))
  | some state, .ready payload => do
    return some (← ofPresenter (state.resize (← ofCodec (GuiWindowReady.decode payload))))
  | some state, .damage payload => do
    return some (← ofPresenter (state.apply (← ofCodec (GuiWindowDamage.decode payload))))

/-- The host after the messages of one frame. -/
def receiveFrames (frames : List GuiFrame) (host : Option FrameState) :
    Exec StreamError (Option FrameState) :=
  forEach frames receiveFrame host

/-- A whole session: the framebuffer the host holds after each captured frame. -/
def streamFrames (window : PinnedWindow) (agent : AgentSession) (host : Option FrameState) :
    List Capture → Exec StreamError (List (Option FrameState))
  | [] => return []
  | capture :: captures => do
    let (agent, frames) ← sendFrame window agent capture
    let host ← receiveFrames frames host
    return host :: (← streamFrames window agent host captures)

/-! ## One message -/

section Tiles

variable {frame : Agent.Frame} {x y : Nat}

/-- The rectangle a tile's message names is the tile. -/
theorem tileDamage_rect (sequence : UInt64) (hx : x ∈ tileStarts frame.width.toNat)
    (hy : y ∈ tileStarts frame.height.toNat) :
    (frame.tileDamage sequence x y).x.toNat = x ∧
      (frame.tileDamage sequence x y).y.toNat = y ∧
      (frame.tileDamage sequence x y).width.toNat = min tileSide (frame.width.toNat - x) ∧
      (frame.tileDamage sequence x y).height.toNat = min tileSide (frame.height.toNat - y) := by
  have hwidth := frame.width.toNat_lt
  have hheight := frame.height.toNat_lt
  have hxlt := (mem_tileStarts.mp hx).1
  have hylt := (mem_tileStarts.mp hy).1
  have hsize : UInt32.size = 2 ^ 32 := rfl
  refine ⟨?_, ?_, ?_, ?_⟩ <;> exact UInt32.toNat_ofNat_of_lt (by omega)

/-- The damage of a tile is valid. -/
theorem tileDamage_valid (sequence : UInt64) (hx : x ∈ tileStarts frame.width.toNat)
    (hy : y ∈ tileStarts frame.height.toNat) :
    ValidDamage (frame.tileDamage sequence x y) := by
  obtain ⟨hX, hY, hW, hH⟩ := tileDamage_rect sequence hx hy
  have hxlt := (mem_tileStarts.mp hx).1
  have hylt := (mem_tileStarts.mp hy).1
  have hwle := frame.dimensions.width_le
  have hhle := frame.dimensions.height_le
  have hside : tileSide = 128 := rfl
  have hmax : maxGuiDamageDimension = 512 := rfl
  constructor
  · omega
  · omega
  · omega
  · omega
  · omega
  · omega
  · rw [hW, hH]
    exact (Agent.Frame.tileOf hx hy rfl).length_tileBytes

end Tiles

/-- The wire form of a damage message. -/
def damageFrame (damage : GuiWindowDamage) : GuiFrame :=
  match damage.encode with
  | .ok payload => .damage payload
  | .error _ => .damage []

/-- A valid damage message is sent as its wire form, and the host applies what was sent. -/
theorem encode_damage_eq_ok {damage : GuiWindowDamage} (h : ValidDamage damage) :
    ∃ payload, damage.encode = .ok payload ∧ GuiWindowDamage.decode payload = .ok damage := by
  have hencode : ∃ payload, damage.encode = .ok payload := by
    unfold GuiWindowDamage.encode
    rw [validateGuiDamage_eq_ok h]
    exact ⟨_, rfl⟩
  obtain ⟨payload, hpayload⟩ := hencode
  exact ⟨payload, hpayload, GuiWindowDamage.decode_encode hpayload⟩

theorem sendDamages_eq {damages : List GuiWindowDamage} (h : ∀ d ∈ damages, ValidDamage d) :
    sendDamages damages = .ok (damages.map damageFrame) := by
  have hbody : ∀ d ∈ damages, ∀ sent : List GuiFrame,
      (do return sent ++ [GuiFrame.damage (← ofCodec d.encode)] : Exec StreamError _) =
        .ok (sent ++ [damageFrame d]) := by
    intro d hd sent
    obtain ⟨payload, hencode, -⟩ := encode_damage_eq_ok (h d hd)
    simp [damageFrame, hencode, ofCodec, pure, Except.pure]
  rw [sendDamages, forEach_append hbody, List.nil_append, List.map_eq_flatMap]

theorem receiveFrame_damage {damage : GuiWindowDamage} (h : ValidDamage damage)
    {state next : FrameState} (happly : state.apply damage = .ok next) :
    receiveFrame (some state) (damageFrame damage) = .ok (some next) := by
  obtain ⟨payload, hencode, hdecode⟩ := encode_damage_eq_ok h
  simp [damageFrame, hencode, receiveFrame, hdecode, ofCodec, happly, ofPresenter, pure,
    Except.pure]

/-- The Ready message of a capture can be sent and read. -/
theorem encode_ready_eq_ok (window : PinnedWindow) (capture : Capture) :
    ∃ payload, (window.ready capture).encode = .ok payload ∧
      GuiWindowReady.decode payload = .ok (window.ready capture) := by
  have htitle : (utf8Bytes (window.ready capture).title).length ≤ maxStringBytes := by
    have : 3 * maxWindowTitleUnits ≤ maxStringBytes := by decide
    exact le_trans capture.title_le this
  have hencode : ∃ payload, (window.ready capture).encode = .ok payload := by
    have hdimensions : validateGuiDimensions (window.ready capture).width
        (window.ready capture).height = .ok () := validateGuiDimensions_eq_ok capture.dimensions
    have hprocess : (window.ready capture).processId ≠ 0 := window.processId_ne_zero
    have hwindow : (window.ready capture).windowId ≠ 0 := window.windowId_ne_zero
    unfold GuiWindowReady.encode
    rw [hdimensions, ok_bind, rejectIf_of_not _ hprocess, ok_bind, rejectIf_of_not _ hwindow,
      ok_bind]
    exact ⟨_, pushString_eq_ok.mpr ⟨htitle, rfl⟩⟩
  obtain ⟨payload, hpayload⟩ := hencode
  exact ⟨payload, hpayload, GuiWindowReady.decode_encode hpayload⟩

/-! ## The messages of one frame -/

/-- A host framebuffer of the frame's size, belonging to the pinned window. -/
structure Showing (window : PinnedWindow) (frame : Agent.Frame) (state : FrameState) : Prop where
  wellFormed : WellFormed state
  processId_eq : state.ready.processId = window.processId
  windowId_eq : state.ready.windowId = window.windowId
  width_eq : state.width = frame.width.toNat
  height_eq : state.height = frame.height.toNat

/-- Whether pixel `(X, Y)` shows the frame. -/
def ShowsPixel (frame : Agent.Frame) (state : FrameState) (X Y : Nat) : Prop :=
  state.pixels[Y * frame.width.toNat + X]? = some (bgraPixel frame.bgra frame.width.toNat X Y)

/-- Whether pixel `(X, Y)` lies in the rectangle of a damage message. -/
def Covers (damage : GuiWindowDamage) (X Y : Nat) : Prop :=
  damage.x.toNat ≤ X ∧ X < damage.x.toNat + damage.width.toNat ∧
    damage.y.toNat ≤ Y ∧ Y < damage.y.toNat + damage.height.toNat

/-- Applying one tile: the host accepts it, the tile's pixels then show the frame, and
    pixels that showed it before still do. -/
theorem apply_tileDamage {window : PinnedWindow} {frame : Agent.Frame} {state : FrameState}
    (hshow : Showing window frame state) {sequence : UInt64} (hseq : state.sequence ≤ sequence)
    {x y : Nat} (hx : x ∈ tileStarts frame.width.toNat) (hy : y ∈ tileStarts frame.height.toNat) :
    ∃ next, state.apply (frame.tileDamage sequence x y) = .ok next ∧
      Showing window frame next ∧ next.sequence = sequence ∧
      ∀ X Y, X < frame.width.toNat → Y < frame.height.toNat →
        Covers (frame.tileDamage sequence x y) X Y ∨ ShowsPixel frame state X Y →
          ShowsPixel frame next X Y := by
  obtain ⟨hX, hY, hW, hH⟩ := tileDamage_rect sequence hx hy
  have htile := Agent.Frame.tileOf hx hy (rfl : frame.bgra.length = frame.bgra.length)
  have hright := htile.right_le
  have hbottom := htile.bottom_le
  have hnewer : ¬ (frame.tileDamage sequence x y).sequence < state.sequence := by
    simpa [Agent.Frame.tileDamage] using hseq
  obtain ⟨pixels, happly, hcopied⟩ := apply_spec hshow.wellFormed hnewer
    (tileDamage_valid sequence hx hy).bgra_length
    (by rw [hX, hW, hshow.width_eq]; exact hright)
    (by rw [hY, hH, hshow.height_eq]; exact hbottom)
  have hwf := wellFormed_apply hshow.wellFormed happly
  refine ⟨_, happly, ⟨hwf, hshow.processId_eq, hshow.windowId_eq, hshow.width_eq,
    hshow.height_eq⟩, rfl, ?_⟩
  intro X Y hXlt hYlt hshown
  have hpixel := hcopied.pixel_eq X Y (by rw [hshow.width_eq]; exact hXlt)
    (by rw [hshow.height_eq]; exact hYlt)
  simp only [ShowsPixel] at hshown ⊢
  rw [← hshow.width_eq] at hshown ⊢
  rw [hpixel]
  split
  · rename_i hpatched
    -- Inside the rectangle: the tile's bytes are those of the frame.
    simp only [Patched, hX, hY, hW, hH] at hpatched ⊢
    rw [Option.some.injEq, hshow.width_eq]
    have hcolour := htile.bgraPixel_tileBytes
      (by omega : X - x < min tileSide (frame.width.toNat - x))
      (by omega : Y - y < min tileSide (frame.height.toNat - y))
    rw [Nat.add_sub_cancel' (by omega), Nat.add_sub_cancel' (by omega)] at hcolour
    exact hcolour
  · rename_i hpatched
    rcases hshown with hcovers | hshown
    · exact absurd (by unfold Covers at hcovers; unfold Patched; omega) hpatched
    · exact hshown

theorem mem_damages {frame : Agent.Frame} {resized : Bool} {previous : Bytes} {sequence : UInt64}
    {damage : GuiWindowDamage} (h : damage ∈ frame.damages resized previous sequence) :
    ∃ x ∈ tileStarts frame.width.toNat, ∃ y ∈ tileStarts frame.height.toNat,
      damage = frame.tileDamage sequence x y := by
  simp only [Agent.Frame.damages, List.mem_flatMap] at h
  obtain ⟨y, hy, x, hx, hmem⟩ := h
  split at hmem
  · simp at hmem
  · exact ⟨x, hx, y, hy, List.mem_singleton.mp hmem⟩

/-- Every pixel of a frame is in a reported tile or in one that did not change. -/
theorem covered_or_sameTile {frame : Agent.Frame} (resized : Bool) (previous : Bytes)
    (sequence : UInt64) {X Y : Nat} (hX : X < frame.width.toNat) (hY : Y < frame.height.toNat) :
    (∃ damage ∈ frame.damages resized previous sequence, Covers damage X Y) ∨
      (resized = false ∧ ∃ x ∈ tileStarts frame.width.toNat,
        ∃ y ∈ tileStarts frame.height.toNat, frame.SameTile previous x y ∧
          x ≤ X ∧ X < x + min tileSide (frame.width.toNat - x) ∧
          y ≤ Y ∧ Y < y + min tileSide (frame.height.toNat - y)) := by
  obtain ⟨x, hx, hxle, hxlt⟩ := exists_tileStart hX
  obtain ⟨y, hy, hyle, hylt⟩ := exists_tileStart hY
  by_cases hsame : resized = false ∧ frame.SameTile previous x y
  · exact .inr ⟨hsame.1, x, hx, y, hy, hsame.2, hxle, hxlt, hyle, hylt⟩
  · refine .inl ⟨frame.tileDamage sequence x y, ?_, ?_⟩
    · simp only [Agent.Frame.damages, List.mem_flatMap]
      exact ⟨y, hy, x, hx, by simp [hsame]⟩
    · obtain ⟨hX', hY', hW, hH⟩ := tileDamage_rect sequence hx hy
      simp only [Covers, hX', hY', hW, hH]
      exact ⟨hxle, hxlt, hyle, hylt⟩

/-- The host after some damages of a frame: what they cover shows the frame, and so does
    what showed it before. -/
structure Received (window : PinnedWindow) (frame : Agent.Frame) (sequence : UInt64)
    (before : FrameState) (damages : List GuiWindowDamage) (state : FrameState) : Prop where
  showing : Showing window frame state
  sequence_le : state.sequence ≤ sequence
  pixels : ∀ X Y, X < frame.width.toNat → Y < frame.height.toNat →
    (∃ damage ∈ damages, Covers damage X Y) ∨ ShowsPixel frame before X Y →
      ShowsPixel frame state X Y

/-- The host takes all damages of a frame. -/
theorem receiveFrames_damages {window : PinnedWindow} {frame : Agent.Frame} {state : FrameState}
    (hshow : Showing window frame state) {sequence : UInt64} (hseq : state.sequence ≤ sequence)
    (resized : Bool) (previous : Bytes) :
    ∃ next, receiveFrames ((frame.damages resized previous sequence).map damageFrame)
        (some state) = .ok (some next) ∧
      Received window frame sequence state (frame.damages resized previous sequence) next := by
  -- Damage by damage the state of the host comes closer to the frame.
  have hloop : ∃ host, forEach (frame.damages resized previous sequence)
        (fun host damage => receiveFrame host (damageFrame damage)) (some state) = .ok host ∧
      ∃ next, host = some next ∧ Received window frame sequence state
        (frame.damages resized previous sequence) next := by
    refine forEach_spec (fun seen host =>
      ∃ next, host = some next ∧ Received window frame sequence state seen next)
      ⟨state, rfl, hshow, hseq, by simp⟩ ?_
    rintro seen damage rest _ hall ⟨current, rfl, hcurrent⟩
    -- Each damage is a tile of the frame.
    obtain ⟨x, hx, y, hy, rfl⟩ := mem_damages (hall ▸ by simp :
      damage ∈ frame.damages resized previous sequence)
    obtain ⟨next, happly, hnext, hnextseq, hpixels⟩ :=
      apply_tileDamage hcurrent.showing hcurrent.sequence_le hx hy
    refine ⟨some next, receiveFrame_damage (tileDamage_valid sequence hx hy) happly, next, rfl,
      hnext, hnextseq ▸ UInt64.le_refl _, ?_⟩
    -- A pixel is shown by an earlier damage, by this one, or was before.
    intro X Y hX hY hshown
    apply hpixels X Y hX hY
    rcases hshown with ⟨d, hd, hcovers⟩ | hbefore
    · rcases List.mem_append.mp hd with hseen | hlast
      · exact .inr (hcurrent.pixels X Y hX hY (.inl ⟨d, hseen, hcovers⟩))
      · exact .inl (List.mem_singleton.mp hlast ▸ hcovers)
    · exact .inr (hcurrent.pixels X Y hX hY (.inr hbefore))
  obtain ⟨_, hreceive, next, rfl, hnext⟩ := hloop
  refine ⟨next, ?_, hnext⟩
  rw [receiveFrames, forEach, List.foldlM_map]
  exact hreceive

/-! ## One frame -/

/-- The two parties after `count` frames: before the first one nothing is announced and
    the host has no framebuffer; after it the host shows the frame the tracker holds. -/
inductive Synced (window : PinnedWindow) : AgentSession → Option FrameState → Nat → Prop where
  | start : Synced window {} none 0
  | after {agent : AgentSession} {state : FrameState} {count : Nat} (capture : Capture)
      (size_eq : agent.size = some (capture.width, capture.height))
      (width_eq : agent.damage.width = capture.width.toNat)
      (height_eq : agent.damage.height = capture.height.toNat)
      (previous_eq : agent.damage.previous = capture.bgra)
      (sequence_eq : agent.damage.sequence.toNat = count)
      (showing : Showing window capture.toFrame state)
      (sequence_le : state.sequence ≤ agent.damage.sequence)
      (pixels : ∀ X Y, X < capture.width.toNat → Y < capture.height.toNat →
        ShowsPixel capture.toFrame state X Y) : Synced window agent (some state) count

section Synced

variable {window : PinnedWindow} {agent : AgentSession} {host : Option FrameState} {count : Nat}

theorem Synced.sized (h : Synced window agent host count) : agent.damage.Sized := by
  cases h with
  | start => rfl
  | after capture hsize hwidth hheight hprevious =>
    rw [DamageTracker.Sized, hwidth, hheight, hprevious, capture.bgra_length]

theorem Synced.sequence_eq (h : Synced window agent host count) :
    agent.damage.sequence.toNat = count := by
  cases h with
  | start => rfl
  | after _ _ _ _ _ hsequence => exact hsequence

/-- The tracker sees a size change exactly when the agent announces one. -/
theorem Synced.resized_iff (h : Synced window agent host count) (capture : Capture) :
    agent.damage.resized capture.toFrame = true ↔
      agent.size ≠ some (capture.width, capture.height) := by
  cases h with
  | start =>
    have := capture.dimensions.width_pos
    simp only [DamageTracker.resized, decide_eq_true_eq, ne_eq, reduceCtorEq, not_false_eq_true,
      iff_true]
    left
    omega
  | after last hsize hwidth hheight =>
    rw [DamageTracker.resized, hsize, hwidth, hheight]
    simp only [decide_eq_true_eq, ne_eq, Option.some.injEq, Prod.mk.injEq, not_and_or,
      UInt32.toNat_inj]

/-- After the Ready message, if one is sent, the host's framebuffer has the frame's size. -/
theorem Synced.receive_ready (h : Synced window agent host count) (capture : Capture) :
    ∃ frames state, sendReady window agent capture = .ok frames ∧
      receiveFrames frames host = .ok (some state) ∧
      Showing window capture.toFrame state ∧ state.sequence ≤ agent.damage.sequence ∧
      (agent.damage.resized capture.toFrame = false → host = some state) := by
  obtain ⟨payload, hencode, hdecode⟩ := encode_ready_eq_ok window capture
  have hblank : Showing window capture.toFrame (blank (window.ready capture)) :=
    ⟨wellFormed_blank capture.dimensions, rfl, rfl, rfl, rfl⟩
  by_cases hsize : agent.size = some (capture.width, capture.height)
  · -- The size is unchanged: nothing is sent.
    have hsend : sendReady window agent capture = .ok [] := by
      rw [sendReady, if_pos hsize]
      rfl
    cases h with
    | start => simp at hsize
    | after last hlast hwidth hheight hprevious hsequence hshowing hle hpixels =>
      refine ⟨[], _, hsend, rfl, ?_, hle, fun _ => rfl⟩
      rw [hlast, Option.some.injEq, Prod.mk.injEq] at hsize
      exact ⟨hshowing.wellFormed, hshowing.processId_eq, hshowing.windowId_eq,
        hsize.1 ▸ hshowing.width_eq, hsize.2 ▸ hshowing.height_eq⟩
  -- The size is new: the host starts with a blank buffer of that size.
  · have hsend : sendReady window agent capture = .ok [.ready payload] := by
      rw [sendReady, if_neg hsize, hencode]
      rfl
    have hresized : agent.damage.resized capture.toFrame ≠ false := by
      simpa using (h.resized_iff capture).mpr hsize
    refine ⟨_, blank (window.ready capture), hsend, ?_, hblank, UInt64.zero_le,
      fun hfalse => absurd hfalse hresized⟩
    cases h with
    | start =>
      have hnew : FrameState.new (window.ready capture) = .ok (blank (window.ready capture)) :=
        resize_eq_ok_iff.mpr ⟨by simp, capture.dimensions, rfl⟩
      simp [receiveFrames, receiveFrame, hdecode, ofCodec, hnew, ofPresenter, pure, Except.pure]
    | @after _ state _ last hlast hwidth hheight hprevious hsequence hshowing =>
      have hresize : state.resize (window.ready capture) = .ok (blank (window.ready capture)) :=
        resize_eq_ok_iff.mpr ⟨by
          simp [PinnedWindow.ready, hshowing.processId_eq, hshowing.windowId_eq],
          capture.dimensions, rfl⟩
      simp [receiveFrames, receiveFrame, hdecode, ofCodec, hresize, ofPresenter, pure, Except.pure]

/-- Where the tile did not change, a framebuffer in step with the tracker already shows the
    new frame. -/
theorem Synced.showsPixel_of_sameTile {state : FrameState}
    (h : Synced window agent (some state) count) {capture : Capture}
    (hsize : agent.damage.resized capture.toFrame = false) {x y X Y : Nat}
    (hx : x ∈ tileStarts capture.width.toNat) (hy : y ∈ tileStarts capture.height.toNat)
    (hsame : capture.toFrame.SameTile agent.damage.previous x y)
    (hX : x ≤ X ∧ X < x + min tileSide (capture.width.toNat - x))
    (hY : y ≤ Y ∧ Y < y + min tileSide (capture.height.toNat - y)) :
    ShowsPixel capture.toFrame state X Y := by
  cases h with
  | after last hlast hwidth hheight hprevious hsequence hshowing hle hpixels =>
    simp only [DamageTracker.resized, decide_eq_false_iff_not, not_or, not_not] at hsize
    obtain ⟨hw, hh⟩ := hsize
    rw [hwidth] at hw
    rw [hheight] at hh
    have hlen : last.bgra.length = capture.bgra.length := by
      rw [last.bgra_length, capture.bgra_length, hw, hh]
    have hcolour := bgraPixel_of_rows_eq (Agent.Frame.tileOf hx hy hlen) (Agent.Frame.tileOf hx hy rfl)
      (hprevious ▸ hsame) (by omega : X - x < _) (by omega : Y - y < _)
    rw [Nat.add_sub_cancel' hX.1, Nat.add_sub_cancel' hY.1] at hcolour
    have hshown := hpixels X Y (by omega) (by omega)
    rw [ShowsPixel, hw, hcolour] at hshown
    exact hshown

theorem nextSequence_toNat {sequence : UInt64} (h : sequence.toNat + 1 < 2 ^ 64) :
    (nextSequence sequence).toNat = sequence.toNat + 1 := by
  have hfits : sequence.toNat + 1 < usizeSize := h
  rw [nextSequence, if_pos hfits, UInt64.toNat_add]
  exact Nat.mod_eq_of_lt h

/-- One frame: the agent sends it, the host takes every message, the two sides are in step
    again and the host shows the frame. -/
theorem Synced.step (h : Synced window agent host count) (hcount : count + 1 < 2 ^ 64)
    (capture : Capture) :
    ∃ agent' frames state, sendFrame window agent capture = .ok (agent', frames) ∧
      receiveFrames frames host = .ok (some state) ∧
      Synced window agent' (some state) (count + 1) ∧
      state.pixels = rasterOf capture.width.toNat capture.height.toNat
        (bgraPixel capture.bgra capture.width.toNat) := by
  obtain ⟨ready, current, hready, hreceived, hshowing, hle, hsame⟩ := h.receive_ready capture
  have hsequence := h.sequence_eq
  have hnext := nextSequence_toNat (by omega : agent.damage.sequence.toNat + 1 < 2 ^ 64)
  have hle' : current.sequence ≤ nextSequence agent.damage.sequence := by
    rw [UInt64.le_iff_toNat_le] at hle ⊢
    omega
  obtain ⟨state, hdamages, hstate⟩ := receiveFrames_damages hshowing hle'
    (agent.damage.resized capture.toFrame) agent.damage.previous
  have hvalid : ∀ d ∈ capture.toFrame.damages (agent.damage.resized capture.toFrame)
      agent.damage.previous (nextSequence agent.damage.sequence), ValidDamage d := by
    intro d hd
    obtain ⟨x, hx, y, hy, rfl⟩ := mem_damages hd
    exact tileDamage_valid _ hx hy
  -- Every pixel was sent, or showed the frame before.
  have hpixels : ∀ X Y, X < capture.width.toNat → Y < capture.height.toNat →
      ShowsPixel capture.toFrame state X Y := by
    intro X Y hX hY
    apply hstate.pixels X Y hX hY
    rcases covered_or_sameTile (agent.damage.resized capture.toFrame) agent.damage.previous
      (nextSequence agent.damage.sequence) hX hY with hcovered | hunchanged
    · exact .inl hcovered
    · obtain ⟨hsize, x, hx, y, hy, htile, hxle, hxlt, hyle, hylt⟩ := hunchanged
      rw [hsame hsize] at h
      exact .inr (h.showsPixel_of_sameTile hsize hx hy htile ⟨hxle, hxlt⟩ ⟨hyle, hylt⟩)
  have hnext' : (agent.damage.seen capture.toFrame).sequence.toNat = count + 1 :=
    hsequence ▸ hnext
  refine ⟨{ size := some (capture.width, capture.height),
            damage := agent.damage.seen capture.toFrame },
    ready ++ (capture.toFrame.damages (agent.damage.resized capture.toFrame)
      agent.damage.previous (nextSequence agent.damage.sequence)).map damageFrame,
    state, ?_, ?_,
    .after capture rfl rfl rfl rfl hnext' hstate.showing hstate.sequence_le hpixels, ?_⟩
  · unfold sendFrame
    rw [hready, ok_bind, update_eq h.sized capture.toFrame, ofAgent, ok_bind]
    dsimp only
    rw [sendDamages_eq hvalid, ok_bind]
    rfl
  · rw [receiveFrames, forEach, List.foldlM_append]
    rw [receiveFrames, forEach] at hreceived hdamages
    rw [hreceived]
    exact hdamages
  · have hlen := hstate.showing.wellFormed.pixels_length
    rw [hstate.showing.width_eq, hstate.showing.height_eq] at hlen
    refine raster_ext hlen (length_rasterOf _) fun X Y hX hY => ?_
    rw [hpixels X Y hX hY, getElem?_rasterOf _ hX hY]

end Synced

/-! ## Whole sessions -/

/-- From parties in step, a session of any frames runs to its end. -/
theorem streamFrames_synced {window : PinnedWindow} (captures : List Capture)
    {agent : AgentSession} {host : Option FrameState} {count : Nat}
    (h : Synced window agent host count) (hcount : count + captures.length < 2 ^ 64) :
    ∃ shown, streamFrames window agent host captures = .ok shown ∧
      List.Forall₂ (fun (capture : Capture) (host : Option FrameState) =>
        host.map FrameState.pixels = some (rasterOf capture.width.toNat capture.height.toNat
          (bgraPixel capture.bgra capture.width.toNat))) captures shown := by
  induction captures generalizing agent host count with
  | nil => exact ⟨[], rfl, .nil⟩
  | cons capture captures ih =>
    rw [List.length_cons] at hcount
    obtain ⟨agent', frames, state, hsend, hreceive, hsynced, hpixels⟩ :=
      h.step (by omega) capture
    obtain ⟨shown, hrest, hall⟩ := ih hsynced (by omega)
    refine ⟨some state :: shown, ?_, .cons (by rw [Option.map_some, hpixels]) hall⟩
    rw [streamFrames, hsend, ok_bind]
    dsimp only
    rw [hreceive, ok_bind, hrest]
    rfl

/-- For every sequence of captured frames, of any sizes in any order, no step of the session
    fails and after each frame the host's pixels are the RGB part of that frame. -/
theorem streamFrames_shows_every_frame (window : PinnedWindow) (captures : List Capture)
    (hcount : captures.length < 2 ^ 64) :
    ∃ shown, streamFrames window {} none captures = .ok shown ∧
      List.Forall₂ (fun (capture : Capture) (host : Option FrameState) =>
        host.map FrameState.pixels = some (rasterOf capture.width.toNat capture.height.toNat
          (bgraPixel capture.bgra capture.width.toNat))) captures shown :=
  streamFrames_synced captures .start (by omega)

/-- A capture of a window one pixel high, all of one byte value. -/
def stripCapture (width : UInt32) (value : UInt8)
    (h : ValidDimensions width.toNat (1 : UInt32).toNat) : Capture where
  width := width
  height := 1
  bgra := List.replicate (width.toNat * 4) value
  dimensions := h
  bgra_length := by simp
  title := "Editor"
  title_le := by decide

/-- A window that grows from one pixel to two and then changes colour. -/
def growingWindow : List Capture :=
  [stripCapture 1 5 ⟨by decide, by decide, by decide, by decide, by decide⟩,
    stripCapture 2 5 ⟨by decide, by decide, by decide, by decide, by decide⟩,
    stripCapture 2 6 ⟨by decide, by decide, by decide, by decide, by decide⟩]

theorem streamFrames_shows_growingWindow :
    growingWindow.length < 2 ^ 64 ∧
      ∃ shown, streamFrames ⟨7, 9, by decide, by decide⟩ {} none growingWindow = .ok shown ∧
        List.Forall₂ (fun (capture : Capture) (host : Option FrameState) =>
          host.map FrameState.pixels = some (rasterOf capture.width.toNat capture.height.toNat
            (bgraPixel capture.bgra capture.width.toNat))) growingWindow shown :=
  ⟨by decide, streamFrames_shows_every_frame _ growingWindow (by decide)⟩

end Lsw.Gui
