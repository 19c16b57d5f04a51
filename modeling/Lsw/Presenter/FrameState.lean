import Lsw.Protocol.Gui
import Lsw.Lib.Raster

/-!
# The Host Framebuffer

`FrameState` is the presenter's copy of one guest window (`render.rs`): a Ready message
sizes it and clears it, a damage message patches one rectangle of it.

Every check of `resize` and `apply` comes before their first assignment, so a call that
returns `Err` leaves the state as it was; the model returns the new state or the error.
Index and slice panics and 64-bit overflows of the loops are kept as `Fault.panic`.
-/

namespace Lsw.Presenter

open Lsw.Lib
open Lsw.Protocol

/-! ## State -/

/-- `FrameState`. -/
structure FrameState where
  ready : GuiWindowReady
  width : Nat
  height : Nat
  pixels : List UInt32
  sequence : UInt64
  deriving DecidableEq

/-- `(red << 16) | (green << 8) | blue`. -/
def rgb (blue green red : UInt8) : UInt32 :=
  (red.toUInt32 <<< 16) ||| (green.toUInt32 <<< 8) ||| blue.toUInt32

namespace FrameState

/-- `FrameState::resize`. -/
def resize (state : FrameState) (ready : GuiWindowReady) : Exec String FrameState := do
  rejectIf (state.width ≠ 0 ∧
      (ready.processId ≠ state.ready.processId ∨ ready.windowId ≠ state.ready.windowId))
    (.error "seamless GUI Ready changed its pinned process or HWND identity")
  rejectIf (ready.width = 0 ∨ ready.height = 0 ∨ ready.width.toNat > maxGuiWindowDimension ∨
      ready.height.toNat > maxGuiWindowDimension)
    (.error "seamless GUI framebuffer dimensions are invalid")
  let width := ready.width.toNat
  let height := ready.height.toNat
  let bytes ← okOr (bgraByteLength width height)
    (.error "seamless GUI framebuffer size overflowed")
  rejectIf (bytes > maxGuiFrameBytes)
    (.error "seamless GUI framebuffer exceeds the protocol limit")
  return { ready, width, height, pixels := List.replicate (width * height) 0, sequence := 0 }

/-- `FrameState::new`. -/
def new (ready : GuiWindowReady) : Exec String FrameState :=
  resize { ready, width := 0, height := 0, pixels := [], sequence := 0 } ready

/-- One pixel of the copy loop of `apply`. -/
def applyColumn (bgra : Bytes) (sourceStart destinationStart : Nat) (pixels : List UInt32)
    (column : Nat) : Exec String (List UInt32) := do
  let offset ← addUsize sourceStart (← mulUsize column 4)
  let blue ← index bgra offset
  let green ← index bgra (← addUsize offset 1)
  let red ← index bgra (← addUsize offset 2)
  indexSet pixels (← addUsize destinationStart column) (rgb blue green red)

/-- One row of the copy loop of `apply`. -/
def applyRow (bgra : Bytes) (frameWidth x y width : Nat) (pixels : List UInt32) (row : Nat) :
    Exec String (List UInt32) := do
  let sourceStart ← mulUsize (← mulUsize row width) 4
  let destinationStart ← addUsize (← mulUsize (← addUsize y row) frameWidth) x
  forRange width (applyColumn bgra sourceStart destinationStart) pixels

/-- `FrameState::apply`. -/
def apply (state : FrameState) (damage : GuiWindowDamage) : Exec String FrameState := do
  rejectIf (damage.sequence < state.sequence)
    (.error "seamless GUI damage sequence moved backwards")
  let x := damage.x.toNat
  let y := damage.y.toNat
  let width := damage.width.toNat
  let height := damage.height.toNat
  let expectedBytes ← okOr (bgraByteLength width height)
    (.error "seamless GUI damage size overflowed")
  rejectIf (damage.bgra.length ≠ expectedBytes)
    (.error "seamless GUI damage payload length is inconsistent")
  rejectIf ((checkedAdd x width).all (· > state.width) ∨
      (checkedAdd y height).all (· > state.height))
    (.error "seamless GUI damage lies outside the current window")
  let pixels ← forRange height (applyRow damage.bgra state.width x y width) state.pixels
  return { state with pixels, sequence := damage.sequence }

end FrameState

/-! ## Well-formed framebuffers -/

/-- What every framebuffer the presenter holds satisfies: a size within the protocol's
    limits that the Ready message announced, and one pixel for each position. -/
structure WellFormed (state : FrameState) : Prop where
  dimensions : ValidDimensions state.width state.height
  ready_width : state.ready.width.toNat = state.width
  ready_height : state.ready.height.toNat = state.height
  pixels_length : state.pixels.length = state.width * state.height

/-- A framebuffer the presenter can hold: made by `new`, then changed by `resize` and
    `apply` calls.  A call that fails leaves the state it was made on. -/
inductive Reachable : FrameState → Prop where
  | new {ready : GuiWindowReady} {state : FrameState} :
      FrameState.new ready = .ok state → Reachable state
  | resize {state next : FrameState} {ready : GuiWindowReady} :
      Reachable state → state.resize ready = .ok next → Reachable next
  | apply {state next : FrameState} {damage : GuiWindowDamage} :
      Reachable state → state.apply damage = .ok next → Reachable next

/-! ## Resizing -/

/-- The framebuffer a Ready message starts: its size, all black, sequence zero. -/
def blank (ready : GuiWindowReady) : FrameState where
  ready := ready
  width := ready.width.toNat
  height := ready.height.toNat
  pixels := List.replicate (ready.width.toNat * ready.height.toNat) 0
  sequence := 0

/-- A framebuffer is resized for the same window and valid dimensions, and is blank then. -/
theorem resize_eq_ok_iff {state next : FrameState} {ready : GuiWindowReady} :
    state.resize ready = .ok next ↔
      ¬ (state.width ≠ 0 ∧ (ready.processId ≠ state.ready.processId ∨
          ready.windowId ≠ state.ready.windowId)) ∧
        ValidDimensions ready.width.toNat ready.height.toNat ∧ next = blank ready := by
  simp only [FrameState.resize, bind_eq_ok, rejectIf_eq_ok, okOr_eq_ok, pure_eq_ok_iff,
    exists_const]
  refine and_congr_right fun _ => ?_
  constructor
  · rintro ⟨hdim, bytes, hbytes, hmax, rfl⟩
    simp only [not_or, ← ne_eq, uint32_ne_zero_iff, not_lt, gt_iff_lt] at hdim
    obtain ⟨hw, hh, hwle, hhle⟩ := hdim
    -- The sizes are at most 8192, so the byte count that was checked is the real product.
    have hfit : ready.width.toNat * ready.height.toNat * 4 < usizeSize := by
      have := Nat.mul_le_mul hwle hhle
      have : maxGuiWindowDimension * maxGuiWindowDimension * 4 < usizeSize := by decide
      omega
    rw [bgraByteLength_eq hfit, Option.some.injEq] at hbytes
    exact ⟨⟨hw, hh, hwle, hhle, by omega⟩, rfl⟩
  · rintro ⟨hvalid, rfl⟩
    have hw := (uint32_ne_zero_iff _).mpr hvalid.width_pos
    have hh := (uint32_ne_zero_iff _).mpr hvalid.height_pos
    have hwle := hvalid.width_le
    have hhle := hvalid.height_le
    have hbytes := hvalid.bytes_le
    exact ⟨by simp [hw, hh]; omega, _, hvalid.byteLength, by omega, rfl⟩

theorem wellFormed_blank {ready : GuiWindowReady}
    (h : ValidDimensions ready.width.toNat ready.height.toNat) : WellFormed (blank ready) where
  dimensions := h
  ready_width := rfl
  ready_height := rfl
  pixels_length := by simp [blank]

/-! ## Patching -/

/-- The colour of pixel `(column, row)` of a BGRA image `width` pixels wide. -/
def bgraPixel (bgra : Bytes) (width column row : Nat) : UInt32 :=
  let offset := (row * width + column) * 4
  rgb (bgra.getD offset 0) (bgra.getD (offset + 1) 0) (bgra.getD (offset + 2) 0)

/-- One pixel of the copy, when the byte and pixel positions are in range. -/
theorem applyColumn_eq_ok {bgra : Bytes} {width height row column destinationStart : Nat}
    {pixels : List UInt32} (hbgra : bgra.length = width * height * 4)
    (hsize : bgra.length < usizeSize) (hrow : row < height) (hcolumn : column < width)
    (hdest : destinationStart + column < pixels.length) (hpixels : pixels.length < usizeSize) :
    FrameState.applyColumn bgra (row * width * 4) destinationStart pixels column =
      .ok (pixels.set (destinationStart + column) (bgraPixel bgra width column row)) := by
  have hpos : row * width + column < width * height := rowMajor_lt hcolumn hrow
  have hoffset : row * width * 4 + column * 4 = (row * width + column) * 4 := by ring
  have hget : ∀ k, k < 4 → bgra[(row * width + column) * 4 + k]? =
      some (bgra.getD ((row * width + column) * 4 + k) 0) := by
    intro k hk
    have hlt : (row * width + column) * 4 + k < bgra.length := by omega
    simp [List.getD_eq_getElem?_getD, hlt]
  unfold FrameState.applyColumn
  rw [mulUsize_eq_ok (by omega), ok_bind, addUsize_eq_ok (by omega), ok_bind, hoffset,
    index_eq_ok (by simpa using hget 0 (by omega)), ok_bind, addUsize_eq_ok (by omega), ok_bind,
    index_eq_ok (hget 1 (by omega)), ok_bind, addUsize_eq_ok (by omega), ok_bind,
    index_eq_ok (hget 2 (by omega)), ok_bind, addUsize_eq_ok (by omega), ok_bind,
    indexSet_eq_ok _ hdest]
  rfl

/-- Whether pixel `(X, Y)` lies in a patch `width` pixels wide at `(x, y)` and is already
    copied when `rows` whole rows and `columns` pixels of the next one are done. -/
def Patched (x y width rows columns X Y : Nat) : Prop :=
  x ≤ X ∧ X < x + width ∧ y ≤ Y ∧ (Y < y + rows ∨ (Y = y + rows ∧ X < x + columns))

instance (x y width rows columns X Y : Nat) :
    Decidable (Patched x y width rows columns X Y) :=
  inferInstanceAs (Decidable (_ ∧ _))

/-- A rectangle of a `W × H` framebuffer and the BGRA image to be copied into it. -/
structure Patch (bgra : Bytes) (W H x y width height : Nat) : Prop where
  bgra_length : bgra.length = width * height * 4
  bgra_fits : bgra.length < usizeSize
  right_le : x + width ≤ W
  bottom_le : y + height ≤ H
  height_fits : H < usizeSize
  pixels_fit : W * H < usizeSize

/-- The invariant of both copy loops: copied pixels are new, all others are those of
    `pixels`. -/
structure CopiedSoFar (bgra : Bytes) (W H x y width : Nat) (pixels : List UInt32)
    (rows columns : Nat) (out : List UInt32) : Prop where
  length_eq : out.length = W * H
  pixel_eq : ∀ X Y, X < W → Y < H → out[Y * W + X]? =
    if Patched x y width rows columns X Y then
      some (bgraPixel bgra width (X - x) (Y - y)) else pixels[Y * W + X]?

section Copy

variable {bgra : Bytes} {W H x y width height : Nat} {pixels out : List UInt32}

/-- One pixel of the patch is copied. -/
theorem applyColumn_copies (hp : Patch bgra W H x y width height) {row column : Nat}
    (hrow : row < height) (hcolumn : column < width)
    (hinv : CopiedSoFar bgra W H x y width pixels row column out) :
    ∃ out', FrameState.applyColumn bgra (row * width * 4) ((y + row) * W + x) out column =
        .ok out' ∧ CopiedSoFar bgra W H x y width pixels row (column + 1) out' := by
  obtain ⟨hbgra, hsize, hright, hbottom, -, hfits⟩ := hp
  obtain ⟨hlen, hpix⟩ := hinv
  have hY : y + row < H := by omega
  have hX : x + column < W := by omega
  have hpos : (y + row) * W + (x + column) < W * H := rowMajor_lt hX hY
  refine ⟨_, applyColumn_eq_ok hbgra hsize hrow hcolumn (by omega) (by omega), ?_, ?_⟩
  · simpa using hlen
  · intro X Y hXW hYH
    rw [Nat.add_assoc, getElem?_set_rowMajor hlen hXW hX hY]
    by_cases hat : X = x + column ∧ Y = y + row
    · obtain ⟨rfl, rfl⟩ := hat
      rw [if_pos ⟨rfl, rfl⟩, if_pos (by unfold Patched; omega), Nat.add_sub_cancel_left,
        Nat.add_sub_cancel_left]
    · rw [if_neg hat, hpix X Y hXW hYH]
      have hiff : Patched x y width row column X Y ↔
          Patched x y width row (column + 1) X Y := by
        unfold Patched
        omega
      simp only [hiff]

/-- One row of it is. -/
theorem applyRow_copies (hp : Patch bgra W H x y width height) {row : Nat}
    (hrow : row < height) (hinv : CopiedSoFar bgra W H x y width pixels row 0 out) :
    ∃ out', FrameState.applyRow bgra W x y width out row = .ok out' ∧
      CopiedSoFar bgra W H x y width pixels (row + 1) 0 out' := by
  obtain ⟨hbgra, hsize, hright, hbottom, hheight, hfits⟩ := hp
  have hrowW : (y + row + 1) * W ≤ W * H := by
    rw [Nat.mul_comm]
    exact Nat.mul_le_mul_left W (by omega)
  have hnext : (y + row + 1) * W = (y + row) * W + W := by ring
  have hsrc : row * width ≤ width * height := by
    rw [Nat.mul_comm]
    exact Nat.mul_le_mul_left width (by omega)
  have hstart : FrameState.applyRow bgra W x y width out row =
      forRange width (FrameState.applyColumn bgra (row * width * 4) ((y + row) * W + x)) out := by
    unfold FrameState.applyRow
    rw [mulUsize_eq_ok (by omega), ok_bind, mulUsize_eq_ok (by omega), ok_bind,
      addUsize_eq_ok (by omega), ok_bind, mulUsize_eq_ok (by omega), ok_bind,
      addUsize_eq_ok (by omega), ok_bind]
  obtain ⟨out', hout', hcopied⟩ := forRange_spec
    (fun columns t => CopiedSoFar bgra W H x y width pixels row columns t) hinv
    (fun column t hcolumn ht => applyColumn_copies
      ⟨hbgra, hsize, hright, hbottom, hheight, hfits⟩ hrow hcolumn ht)
  refine ⟨out', by rw [hstart]; exact hout', hcopied.length_eq, ?_⟩
  intro X Y hX hY
  rw [hcopied.pixel_eq X Y hX hY]
  -- A finished row counts as one more complete row.
  have hiff : Patched x y width row width X Y ↔ Patched x y width (row + 1) 0 X Y := by
    unfold Patched
    omega
  simp only [hiff]

/-- The copy loops of `apply` return; inside the rectangle the pixels are those of the
    payload, outside it they are the old ones. -/
theorem applyRows_copies (hp : Patch bgra W H x y width height)
    (hpixels : pixels.length = W * H) :
    ∃ out, forRange height (FrameState.applyRow bgra W x y width) pixels = .ok out ∧
      CopiedSoFar bgra W H x y width pixels height 0 out := by
  refine forRange_spec (fun rows t => CopiedSoFar bgra W H x y width pixels rows 0 t)
    ⟨hpixels, ?_⟩ (fun row t hrow ht => applyRow_copies hp hrow ht)
  intro X Y _ _
  rw [if_neg]
  unfold Patched
  omega

end Copy

/-- What `apply` accepts and what it does to the framebuffer. -/
theorem apply_spec {state : FrameState} (hwf : WellFormed state) {damage : GuiWindowDamage}
    (hseq : ¬ damage.sequence < state.sequence)
    (hlen : damage.bgra.length = damage.width.toNat * damage.height.toNat * 4)
    (hright : damage.x.toNat + damage.width.toNat ≤ state.width)
    (hbottom : damage.y.toNat + damage.height.toNat ≤ state.height) :
    ∃ pixels, state.apply damage = .ok { state with pixels, sequence := damage.sequence } ∧
      CopiedSoFar damage.bgra state.width state.height damage.x.toNat damage.y.toNat
        damage.width.toNat state.pixels damage.height.toNat 0 pixels := by
  have hw := hwf.dimensions.width_le
  have hh := hwf.dimensions.height_le
  have hmax : maxGuiWindowDimension = 8192 := rfl
  have hbytes := hwf.dimensions.bytes_le
  have hframe : maxGuiFrameBytes < usizeSize := by decide
  have harea : damage.width.toNat * damage.height.toNat ≤ state.width * state.height :=
    Nat.mul_le_mul (by omega) (by omega)
  have husize : (8192 : Nat) + 8192 < usizeSize := by decide
  have hpatch : Patch damage.bgra state.width state.height damage.x.toNat damage.y.toNat
      damage.width.toNat damage.height.toNat :=
    ⟨hlen, by omega, hright, hbottom, by omega, by omega⟩
  obtain ⟨pixels, hloop, hcopied⟩ := applyRows_copies hpatch hwf.pixels_length
  refine ⟨pixels, ?_, hcopied⟩
  unfold FrameState.apply
  rw [rejectIf_of_not _ hseq, ok_bind]
  dsimp only
  rw [bgraByteLength_eq (by omega), okOr_some, ok_bind, rejectIf_of_not _ (by simpa using hlen),
    ok_bind, checkedAdd_eq_some (by omega), checkedAdd_eq_some (by omega), rejectIf_of_not _ (by simp only [Option.all_some, decide_eq_true_eq]; omega), ok_bind, hloop]
  rfl

/-- A patch that `apply` accepts lies in the window, carries exactly its own pixels and is
    not older than the last one. -/
theorem apply_accepts {state next : FrameState} (hwf : WellFormed state)
    {damage : GuiWindowDamage} (h : state.apply damage = .ok next) :
    ¬ damage.sequence < state.sequence ∧
      damage.bgra.length = damage.width.toNat * damage.height.toNat * 4 ∧
      damage.x.toNat + damage.width.toNat ≤ state.width ∧
      damage.y.toNat + damage.height.toNat ≤ state.height := by
  simp only [FrameState.apply, bind_eq_ok, rejectIf_eq_ok, okOr_eq_ok, exists_const] at h
  obtain ⟨hseq, expected, hexpected, hlen, hinside, -⟩ := h
  have hwmax := hwf.dimensions.width_le
  have hhmax := hwf.dimensions.height_le
  simp only [checkedAdd, not_or] at hinside
  have hright : damage.x.toNat + damage.width.toNat ≤ state.width := by
    have := hinside.1
    split at this <;> simp_all
  have hbottom : damage.y.toNat + damage.height.toNat ≤ state.height := by
    have := hinside.2
    split at this <;> simp_all
  have hfit : damage.width.toNat * damage.height.toNat * 4 < usizeSize := by
    have harea : damage.width.toNat * damage.height.toNat ≤ 8192 * 8192 :=
      Nat.mul_le_mul (by simp [maxGuiWindowDimension] at *; omega)
        (by simp [maxGuiWindowDimension] at *; omega)
    have : 8192 * 8192 * 4 < usizeSize := by decide
    omega
  rw [bgraByteLength_eq hfit, Option.some.injEq] at hexpected
  exact ⟨hseq, by omega, hright, hbottom⟩

/-! ## The invariant along a run -/

theorem wellFormed_resize {state next : FrameState} {ready : GuiWindowReady}
    (h : state.resize ready = .ok next) : WellFormed next := by
  obtain ⟨-, hvalid, rfl⟩ := resize_eq_ok_iff.mp h
  exact wellFormed_blank hvalid

theorem wellFormed_apply {state next : FrameState} {damage : GuiWindowDamage}
    (hwf : WellFormed state) (h : state.apply damage = .ok next) : WellFormed next := by
  obtain ⟨hseq, hlen, hright, hbottom⟩ := apply_accepts hwf h
  obtain ⟨pixels, happly, hcopied⟩ := apply_spec hwf hseq hlen hright hbottom
  rw [happly, Except.ok.injEq] at h
  subst h
  exact ⟨hwf.dimensions, hwf.ready_width, hwf.ready_height, hcopied.length_eq⟩

/-- Every framebuffer the presenter can hold is well formed. -/
theorem Reachable.wellFormed {state : FrameState} (h : Reachable state) : WellFormed state := by
  induction h with
  | new hnew => exact wellFormed_resize hnew
  | resize _ hresize _ => exact wellFormed_resize hresize
  | apply _ happly ih => exact wellFormed_apply ih happly

end Lsw.Presenter
