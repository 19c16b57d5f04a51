import Lsw.Presenter.FrameState

/-!
# Letterboxed Rendering

`render_scaled` draws the guest framebuffer into a host window of another size
(`render.rs`): `fit_viewport` picks the largest centred rectangle with the guest's aspect
ratio, and each of its pixels shows the nearest guest pixel.  When the rectangle has the
guest's own size at the window's origin the pixels are copied in one go.

The copy takes the whole window buffer, not the rectangle.  Centring rounds a margin of
one pixel down to zero, so a window one pixel wider or higher than the guest also takes
the copy, with a buffer one row or column too long, and `copy_from_slice` panics.
`renderScaled_eq_letterboxed_iff` shows these to be the only window sizes that fail.
-/

namespace Lsw.Presenter

open Lsw.Lib
open Lsw.Protocol

/-! ## Viewport -/

/-- `Viewport`. -/
structure Viewport where
  x : Nat
  y : Nat
  width : Nat
  height : Nat
  deriving DecidableEq, Repr

/-- `u32::try_from(value).unwrap_or(u32::MAX)`. -/
def toU32OrMax (value : Nat) : Nat := if value < u32Size then value else u32Size - 1

/-- `fit_viewport`.  The arguments are `u32`, so the `u64` products are exact. -/
def fitViewport (window guest : Nat × Nat) : Viewport :=
  let windowWidth := max window.1 1
  let windowHeight := max window.2 1
  let guestWidth := max guest.1 1
  let guestHeight := max guest.2 1
  let (width, height) :=
    if windowWidth * guestHeight ≤ windowHeight * guestWidth then
      (windowWidth, toU32OrMax (max (guestHeight * windowWidth / guestWidth) 1))
    else
      (toU32OrMax (max (guestWidth * windowHeight / guestHeight) 1), windowHeight)
  { x := (windowWidth - width) / 2
    y := (windowHeight - height) / 2
    width := width
    height := height }

/-! ## Rendering -/

/-- `u32::try_from(value)?`. -/
def tryU32 (value : Nat) : Exec String Nat :=
  if value < u32Size then .ok value
  else .error (.error "out of range integral type conversion attempted")

/-- One pixel of the scaling loop. -/
def renderColumn (state : FrameState) (viewport : Viewport) (sourceY destinationStart : Nat)
    (destination : List UInt32) (localX : Nat) : Exec String (List UInt32) := do
  let sourceX := saturatingMul localX state.width / viewport.width
  let pixel ← index state.pixels (← addUsize (← mulUsize sourceY state.width) sourceX)
  indexSet destination (destinationStart + localX) pixel

/-- One row of the scaling loop; `row` is a view of the destination, so writing to it
    writes to the destination. -/
def renderRow (state : FrameState) (viewport : Viewport) (width : Nat)
    (destination : List UInt32) (localY : Nat) : Exec String (List UInt32) := do
  let sourceY := saturatingMul localY state.height / viewport.height
  let destinationStart ←
    addUsize (← mulUsize (← addUsize viewport.y localY) width) viewport.x
  let _row ← slice destination destinationStart (← addUsize destinationStart viewport.width)
  forRange viewport.width (renderColumn state viewport sourceY destinationStart) destination

/-- `render_scaled`: the new contents of `destination`. -/
def renderScaled (state : FrameState) (width height : Nat) (destination : List UInt32) :
    Exec String (List UInt32) := do
  let expected ← okOr (checkedMul width height) (.error "Wayland render buffer size overflowed")
  rejectIf (destination.length ≠ expected ∨ state.width = 0 ∨ state.height = 0)
    (.error "Wayland render buffer dimensions are inconsistent")
  let viewport := fitViewport (← tryU32 width, ← tryU32 height)
    (state.ready.width.toNat, state.ready.height.toNat)
  if viewport.x = 0 ∧ viewport.y = 0 ∧ viewport.width = state.width ∧
      viewport.height = state.height then
    copyFromSlice destination state.pixels
  else
    forRange viewport.height (renderRow state viewport width)
      (List.replicate destination.length 0)

/-! ## The letterboxed reference -/

/-- Whether window pixel `(x, y)` belongs to the viewport. -/
def Viewport.Covers (viewport : Viewport) (x y : Nat) : Prop :=
  viewport.x ≤ x ∧ x < viewport.x + viewport.width ∧
    viewport.y ≤ y ∧ y < viewport.y + viewport.height

instance (viewport : Viewport) (x y : Nat) : Decidable (viewport.Covers x y) :=
  inferInstanceAs (Decidable (_ ∧ _))

/-- The colour of window pixel `(x, y)`: the nearest guest pixel inside the viewport,
    black outside it. -/
def letterboxPixel (state : FrameState) (viewport : Viewport) (x y : Nat) : UInt32 :=
  if viewport.Covers x y then
    state.pixels.getD ((y - viewport.y) * state.height / viewport.height * state.width +
      (x - viewport.x) * state.width / viewport.width) 0
  else 0

/-- What a window of `w × h` pixels is meant to show. -/
def letterboxed (state : FrameState) (w h : Nat) : List UInt32 :=
  rasterOf w h (letterboxPixel state
    (fitViewport (w, h) (state.ready.width.toNat, state.ready.height.toNat)))

/-! ## Geometry of the viewport -/

/-- The two ways `fit_viewport` can go, on real sizes. -/
theorem fitViewport_cases {w h W H : Nat} (hw : 1 ≤ w) (hh : 1 ≤ h) (hW : 1 ≤ W) (hH : 1 ≤ H)
    (hw32 : w < u32Size) (hh32 : h < u32Size) :
    (w * H ≤ h * W ∧ (fitViewport (w, h) (W, H)).width = w ∧
        (fitViewport (w, h) (W, H)).height = max (H * w / W) 1 ∧ max (H * w / W) 1 ≤ h) ∨
      (h * W < w * H ∧ (fitViewport (w, h) (W, H)).height = h ∧
        (fitViewport (w, h) (W, H)).width = max (W * h / H) 1 ∧ max (W * h / H) 1 ≤ w) := by
  have hmax : ∀ {n : Nat}, 1 ≤ n → max n 1 = n := fun hn => by omega
  by_cases hwide : w * H ≤ h * W
  · left
    have hle : H * w / W ≤ h := by
      rw [Nat.mul_comm H w]
      exact Nat.div_le_of_le_mul (by rwa [Nat.mul_comm W h])
    have hu32 : toU32OrMax (max (H * w / W) 1) = max (H * w / W) 1 := if_pos (by omega)
    simp only [fitViewport, hmax hw, hmax hh, hmax hW, hmax hH, if_pos hwide, hu32]
    exact ⟨hwide, trivial, trivial, by omega⟩
  · right
    have hlt : h * W < w * H := by omega
    have hle : W * h / H ≤ w := by
      rw [Nat.mul_comm W h]
      exact Nat.div_le_of_le_mul (by rw [Nat.mul_comm H w]; exact Nat.le_of_lt hlt)
    have hu32 : toU32OrMax (max (W * h / H) 1) = max (W * h / H) 1 := if_pos (by omega)
    simp only [fitViewport, hmax hw, hmax hh, hmax hW, hmax hH, if_neg hwide, hu32]
    exact ⟨hlt, trivial, trivial, by omega⟩

/-- The margins are half of what the viewport leaves over. -/
theorem fitViewport_margins {w h : Nat} (guest : Nat × Nat) (hw : 1 ≤ w) (hh : 1 ≤ h) :
    (fitViewport (w, h) guest).x = (w - (fitViewport (w, h) guest).width) / 2 ∧
      (fitViewport (w, h) guest).y = (h - (fitViewport (w, h) guest).height) / 2 := by
  have hmaxw : max w 1 = w := by omega
  have hmaxh : max h 1 = h := by omega
  simp only [fitViewport, hmaxw, hmaxh]
  exact ⟨trivial, trivial⟩

/-- A viewport is a non-empty rectangle inside its window. -/
structure Viewport.Fits (viewport : Viewport) (w h : Nat) : Prop where
  width_pos : 1 ≤ viewport.width
  height_pos : 1 ≤ viewport.height
  right_le : viewport.x + viewport.width ≤ w
  bottom_le : viewport.y + viewport.height ≤ h

theorem fitViewport_fits {w h W H : Nat} (hw : 1 ≤ w) (hh : 1 ≤ h) (hW : 1 ≤ W) (hH : 1 ≤ H)
    (hw32 : w < u32Size) (hh32 : h < u32Size) : (fitViewport (w, h) (W, H)).Fits w h := by
  obtain ⟨hx, hy⟩ := fitViewport_margins (W, H) hw hh
  rcases fitViewport_cases hw hh hW hH hw32 hh32 with
    ⟨-, hwidth, hheight, hle⟩ | ⟨-, hheight, hwidth, hle⟩
  · exact ⟨by omega, by omega, by omega, by omega⟩
  · exact ⟨by omega, by omega, by omega, by omega⟩

/-- Exactly when the viewport has the guest's size at the window's origin: the window has
    the guest's size, or is one pixel higher, or is one pixel wider. -/
theorem unscaled_iff {w h W H : Nat} (hw : 1 ≤ w) (hh : 1 ≤ h) (hW : 1 ≤ W) (hH : 1 ≤ H)
    (hw32 : w < u32Size) (hh32 : h < u32Size) :
    ((fitViewport (w, h) (W, H)).x = 0 ∧ (fitViewport (w, h) (W, H)).y = 0 ∧
        (fitViewport (w, h) (W, H)).width = W ∧ (fitViewport (w, h) (W, H)).height = H) ↔
      (w = W ∧ h = H) ∨ (w = W ∧ h = H + 1) ∨ (w = W + 1 ∧ h = H) := by
  obtain ⟨hx, hy⟩ := fitViewport_margins (W, H) hw hh
  have hdivW : ∀ n, W * n / W = n := fun n => Nat.mul_div_cancel_left n (by omega)
  have hdivH : ∀ n, H * n / H = n := fun n => Nat.mul_div_cancel_left n (by omega)
  -- The viewport has the width or the height of the window.
  rcases fitViewport_cases hw hh hW hH hw32 hh32 with
    ⟨hside, hwidth, hheight, hle⟩ | ⟨hside, hheight, hwidth, hle⟩
  -- The width.
  · rw [hx, hy, hwidth, hheight]
    constructor
    · rintro ⟨-, hy0, rfl, hH'⟩
      omega
    · rintro (⟨rfl, rfl⟩ | ⟨rfl, rfl⟩ | ⟨rfl, rfl⟩)
      · rw [Nat.mul_comm h w, hdivW]
        omega
      · rw [Nat.mul_comm H w, hdivW]
        omega
      · -- A window one pixel wider falls into the other case.
        have : (W + 1) * h = h * W + h := by ring
        omega
  -- The height.
  · rw [hx, hy, hwidth, hheight]
    constructor
    · rintro ⟨hx0, -, hW', rfl⟩
      omega
    · rintro (⟨rfl, rfl⟩ | ⟨rfl, rfl⟩ | ⟨rfl, rfl⟩)
      · rw [Nat.mul_comm h w] at hside
        omega
      · have : (H + 1) * w = w * H + w := by ring
        omega
      · rw [Nat.mul_comm W h, hdivH]
        omega

/-! ## The scaling loop -/

/-- Scaling maps a position below `m` to one below `n`. -/
theorem scale_lt {i m n : Nat} (hi : i < m) (hn : 1 ≤ n) : i * n / m < n := by
  apply Nat.div_lt_of_lt_mul
  exact Nat.mul_lt_mul_of_pos_right hi (by omega)

/-- The invariant of both loops: the reference where already drawn, black elsewhere. -/
structure DrawnSoFar (state : FrameState) (viewport : Viewport) (w h rows columns : Nat)
    (out : List UInt32) : Prop where
  length_eq : out.length = w * h
  pixel_eq : ∀ x y, x < w → y < h → out[y * w + x]? =
    some (if Patched viewport.x viewport.y viewport.width rows columns x y then
      letterboxPixel state viewport x y else 0)

section Loop

variable {state : FrameState} {viewport : Viewport} {w h : Nat} {out : List UInt32}

/-- One pixel of the viewport is drawn. -/
theorem renderColumn_draws (hwf : WellFormed state) (hfits : viewport.Fits w h)
    (hw32 : w < u32Size) {row column : Nat} (hrow : row < viewport.height)
    (hcolumn : column < viewport.width) (hinv : DrawnSoFar state viewport w h row column out) :
    ∃ out', renderColumn state viewport (row * state.height / viewport.height)
        ((viewport.y + row) * w + viewport.x) out column = .ok out' ∧
      DrawnSoFar state viewport w h row (column + 1) out' := by
  obtain ⟨hlen, hpix⟩ := hinv
  have hright := hfits.right_le
  have hbottom := hfits.bottom_le
  have hWmax := hwf.dimensions.width_le
  have hbytes := hwf.dimensions.bytes_le
  have hmax : maxGuiWindowDimension = 8192 := rfl
  have hframe : maxGuiFrameBytes < usizeSize := by decide
  have hX : viewport.x + column < w := by omega
  have hY : viewport.y + row < h := by omega
  have hpos : (viewport.y + row) * w + (viewport.x + column) < w * h := rowMajor_lt hX hY
  -- The source pixel lies in the guest frame.
  have hsx : column * state.width / viewport.width < state.width :=
    scale_lt hcolumn hwf.dimensions.width_pos
  have hsy : row * state.height / viewport.height < state.height :=
    scale_lt hrow hwf.dimensions.height_pos
  have hsrc := rowMajor_lt hsx hsy
  have hsat : saturatingMul column state.width = column * state.width := by
    apply saturatingMul_eq
    calc column * state.width ≤ u32Size * 8192 := Nat.mul_le_mul (by omega) (by omega)
      _ < usizeSize := by decide
  have hget : state.pixels[row * state.height / viewport.height * state.width +
      column * state.width / viewport.width]? = some (letterboxPixel state viewport
        (viewport.x + column) (viewport.y + row)) := by
    have hcovers : viewport.Covers (viewport.x + column) (viewport.y + row) := by
      unfold Viewport.Covers
      omega
    rw [letterboxPixel, if_pos hcovers, Nat.add_sub_cancel_left, Nat.add_sub_cancel_left,
      List.getD_eq_getElem?_getD, List.getElem?_eq_getElem (hwf.pixels_length ▸ hsrc)]
    rfl
  refine ⟨out.set ((viewport.y + row) * w + viewport.x + column)
    (letterboxPixel state viewport (viewport.x + column) (viewport.y + row)), ?_, ?_, ?_⟩
  · unfold renderColumn
    rw [hsat]
    dsimp only
    rw [mulUsize_eq_ok (lt_of_le_of_lt (Nat.le_add_right _ _) (lt_trans hsrc (by omega))),
      ok_bind, addUsize_eq_ok (by omega), ok_bind, index_eq_ok hget, ok_bind,
      indexSet_eq_ok _ (by omega)]
  · simpa using hlen
  · intro x y hx hy
    rw [Nat.add_assoc, getElem?_set_rowMajor hlen hx hX hY]
    by_cases hat : x = viewport.x + column ∧ y = viewport.y + row
    · obtain ⟨rfl, rfl⟩ := hat
      rw [if_pos ⟨rfl, rfl⟩, if_pos (by unfold Patched; omega)]
    · rw [if_neg hat, hpix x y hx hy]
      have hiff : Patched viewport.x viewport.y viewport.width row column x y ↔
          Patched viewport.x viewport.y viewport.width row (column + 1) x y := by
        unfold Patched
        omega
      simp only [hiff]

/-- One row of it is. -/
theorem renderRow_draws (hwf : WellFormed state) (hfits : viewport.Fits w h)
    (hw32 : w < u32Size) (hh32 : h < u32Size) {row : Nat} (hrow : row < viewport.height)
    (hinv : DrawnSoFar state viewport w h row 0 out) :
    ∃ out', renderRow state viewport w out row = .ok out' ∧
      DrawnSoFar state viewport w h (row + 1) 0 out' := by
  have hright := hfits.right_le
  have hbottom := hfits.bottom_le
  have hHmax := hwf.dimensions.height_le
  have hmax : maxGuiWindowDimension = 8192 := rfl
  -- All indices of the row are below the length of the buffer, which fits.
  have harea : w * h < usizeSize := by
    calc w * h < u32Size * u32Size := Nat.mul_lt_mul_of_lt_of_lt hw32 hh32
      _ = usizeSize := by decide
  have hrowW : (viewport.y + row + 1) * w ≤ w * h := by
    rw [Nat.mul_comm]
    exact Nat.mul_le_mul_left w (by omega)
  have hnext : (viewport.y + row + 1) * w = (viewport.y + row) * w + w := by ring
  -- So the saturating product is the product.
  have hsat : saturatingMul row state.height = row * state.height := by
    apply saturatingMul_eq
    calc row * state.height ≤ u32Size * 8192 := Nat.mul_le_mul (by omega) (by omega)
      _ < usizeSize := by decide
  have hu32 : u32Size < usizeSize := by decide
  have hlen := hinv.length_eq
  -- No check of the source fails, and the loop over the columns is left.
  have hstart : renderRow state viewport w out row =
      forRange viewport.width (renderColumn state viewport
        (row * state.height / viewport.height) ((viewport.y + row) * w + viewport.x)) out := by
    unfold renderRow
    rw [hsat]
    dsimp only
    rw [addUsize_eq_ok (by omega), ok_bind, mulUsize_eq_ok (by omega), ok_bind,
      addUsize_eq_ok (by omega), ok_bind, addUsize_eq_ok (by omega), ok_bind,
      slice_eq_ok (by omega) (by omega), ok_bind]
  -- Column by column the row is drawn.
  obtain ⟨out', hout', hdrawn⟩ := forRange_spec
    (fun columns t => DrawnSoFar state viewport w h row columns t) hinv
    (fun column t hcolumn ht => renderColumn_draws hwf hfits hw32 hrow hcolumn ht)
  refine ⟨out', by rw [hstart]; exact hout', hdrawn.length_eq, ?_⟩
  intro x y hx hy
  rw [hdrawn.pixel_eq x y hx hy]
  -- A row drawn to its end is the next one not yet begun.
  have hiff : Patched viewport.x viewport.y viewport.width row viewport.width x y ↔
      Patched viewport.x viewport.y viewport.width (row + 1) 0 x y := by
    unfold Patched
    omega
  simp only [hiff]

/-- The scaling loop returns the letterboxed reference. -/
theorem renderRows_eq (hwf : WellFormed state) (hfits : viewport.Fits w h)
    (hw32 : w < u32Size) (hh32 : h < u32Size) :
    forRange viewport.height (renderRow state viewport w) (List.replicate (w * h) 0) =
      .ok (rasterOf w h (letterboxPixel state viewport)) := by
  have hclear : DrawnSoFar state viewport w h 0 0 (List.replicate (w * h) 0) := by
    refine ⟨by simp, ?_⟩
    intro x y hx hy
    have hlt := rowMajor_lt hx hy
    rw [if_neg (by unfold Patched; omega)]
    simp [hlt]
  obtain ⟨out, hout, hdrawn⟩ := forRange_spec
    (fun rows t => DrawnSoFar state viewport w h rows 0 t) hclear
    (fun row t hrow ht => renderRow_draws hwf hfits hw32 hh32 hrow ht)
  rw [hout]
  congr 1
  refine raster_ext hdrawn.length_eq (length_rasterOf _) ?_
  intro x y hx hy
  rw [hdrawn.pixel_eq x y hx hy, getElem?_rasterOf _ hx hy]
  -- Outside the viewport the reference is black, like the cleared buffer.
  by_cases hcovers : viewport.Covers x y
  · rw [if_pos]
    unfold Patched
    unfold Viewport.Covers at hcovers
    omega
  · rw [if_neg]
    · simp [letterboxPixel, hcovers]
    · unfold Patched
      unfold Viewport.Covers at hcovers
      omega

end Loop

/-! ## Rendering a window -/

/-- On a window of the guest's own size the framebuffer is the reference. -/
theorem letterboxed_same_size {state : FrameState} (hwf : WellFormed state)
    (hw32 : state.width < u32Size) (hh32 : state.height < u32Size) :
    letterboxed state state.width state.height = state.pixels := by
  have hW := hwf.dimensions.width_pos
  have hH := hwf.dimensions.height_pos
  obtain ⟨hx, hy, hwidth, hheight⟩ :=
    (unscaled_iff hW hH hW hH hw32 hh32).mpr (Or.inl ⟨rfl, rfl⟩)
  unfold letterboxed
  rw [hwf.ready_width, hwf.ready_height]
  refine raster_ext (length_rasterOf _) hwf.pixels_length ?_
  intro x y hxW hyH
  have hcovers : (fitViewport (state.width, state.height) (state.width, state.height)).Covers
      x y := by
    unfold Viewport.Covers
    omega
  have hlt : y * state.width + x < state.pixels.length :=
    hwf.pixels_length ▸ rowMajor_lt hxW hyH
  rw [getElem?_rasterOf _ hxW hyH, letterboxPixel, if_pos hcovers, hx, hy, hwidth, hheight,
    Nat.sub_zero, Nat.sub_zero, Nat.mul_div_cancel _ (by omega), Nat.mul_div_cancel _ (by omega),
    List.getD_eq_getElem?_getD, List.getElem?_eq_getElem hlt]
  rfl

/-- Up to the size checks, `render_scaled` is the copy or the scaling loop. -/
theorem renderScaled_eq {state : FrameState} (hwf : WellFormed state) {w h : Nat}
    {destination : List UInt32} (hlen : destination.length = w * h) (hw32 : w < u32Size)
    (hh32 : h < u32Size) :
    renderScaled state w h destination =
      if (fitViewport (w, h) (state.width, state.height)).x = 0 ∧
          (fitViewport (w, h) (state.width, state.height)).y = 0 ∧
          (fitViewport (w, h) (state.width, state.height)).width = state.width ∧
          (fitViewport (w, h) (state.width, state.height)).height = state.height then
        copyFromSlice destination state.pixels
      else forRange (fitViewport (w, h) (state.width, state.height)).height
        (renderRow state (fitViewport (w, h) (state.width, state.height)) w)
        (List.replicate (w * h) 0) := by
  have hW := hwf.dimensions.width_pos
  have hH := hwf.dimensions.height_pos
  have harea : w * h < usizeSize := by
    calc w * h < u32Size * u32Size := Nat.mul_lt_mul_of_lt_of_lt hw32 hh32
      _ = usizeSize := by decide
  have htry : ∀ n, n < u32Size → tryU32 n = .ok n := fun n hn => if_pos hn
  unfold renderScaled
  rw [checkedMul_eq_some harea, okOr_some, ok_bind, rejectIf_of_not _ (by omega), ok_bind,
    htry w hw32, ok_bind, htry h hh32, ok_bind, hwf.ready_width, hwf.ready_height, hlen]

/-- A window whose size does not fit `u32` is refused. -/
theorem renderScaled_ne_ok_of_large {state : FrameState} {w h : Nat}
    {destination out : List UInt32} (hlarge : ¬ (w < u32Size ∧ h < u32Size)) :
    renderScaled state w h destination ≠ .ok out := by
  intro hok
  simp only [renderScaled, bind_eq_ok] at hok
  obtain ⟨_, -, _, -, w', hw', h', hh', -⟩ := hok
  apply hlarge
  unfold tryU32 at hw' hh'
  constructor
  · by_contra hw
    simp [hw] at hw'
  · by_contra hh
    simp [hh] at hh'

/-- For every framebuffer the presenter can hold and every non-empty window,
    `render_scaled` draws the letterboxed reference exactly when the window size fits
    `u32` and is neither one pixel higher nor one pixel wider than the guest. -/
theorem renderScaled_eq_letterboxed_iff {state : FrameState} (hreach : Reachable state)
    {w h : Nat} (hw : 1 ≤ w) (hh : 1 ≤ h) {destination : List UInt32}
    (hlen : destination.length = w * h) :
    renderScaled state w h destination = .ok (letterboxed state w h) ↔
      (w < u32Size ∧ h < u32Size) ∧ ¬ (w = state.width ∧ h = state.height + 1) ∧
        ¬ (w = state.width + 1 ∧ h = state.height) := by
  have hwf := hreach.wellFormed
  have hW := hwf.dimensions.width_pos
  have hH := hwf.dimensions.height_pos
  by_cases hsmall : w < u32Size ∧ h < u32Size
  · obtain ⟨hw32, hh32⟩ := hsmall
    have hfits := fitViewport_fits hw hh hW hH hw32 hh32
    have hunscaled := unscaled_iff hw hh hW hH hw32 hh32
    rw [renderScaled_eq hwf hlen hw32 hh32]
    -- The pixels are copied for three sizes of the window.
    by_cases hcopy : (w = state.width ∧ h = state.height) ∨
        (w = state.width ∧ h = state.height + 1) ∨ (w = state.width + 1 ∧ h = state.height)
    · rw [if_pos (hunscaled.mpr hcopy)]
      rcases hcopy with ⟨rfl, rfl⟩ | ⟨rfl, rfl⟩ | ⟨rfl, rfl⟩
      · -- Equal sizes: the buffers have one length and the copy is the reference.
        rw [copyFromSlice_eq_ok (by rw [hlen, hwf.pixels_length]),
          letterboxed_same_size hwf hw32 hh32]
        simp [hw32, hh32]
      -- One pixel higher or wider, the copy panics.
      · have hne : destination.length ≠ state.pixels.length := by
          rw [hlen, hwf.pixels_length, Nat.mul_succ]
          omega
        simp [copyFromSlice_panics hne]
      · have hne : destination.length ≠ state.pixels.length := by
          rw [hlen, hwf.pixels_length, Nat.succ_mul]
          omega
        simp [copyFromSlice_panics hne]
    -- For any other size the rows are drawn one by one.
    · rw [if_neg (fun h => hcopy (hunscaled.mp h)), renderRows_eq hwf hfits hw32 hh32]
      simp only [letterboxed, hwf.ready_width, hwf.ready_height, true_iff]
      exact ⟨⟨hw32, hh32⟩, fun h => hcopy (Or.inr (Or.inl h)), fun h => hcopy (Or.inr (Or.inr h))⟩
  · constructor
    · intro hok
      exact absurd hok (renderScaled_ne_ok_of_large hsmall)
    · rintro ⟨hsmall', -⟩
      exact absurd hsmall' hsmall

/-! ## Two windows on a guest of two pixels by one -/

/-- A guest window of two pixels by one. -/
def twoByOne : GuiWindowReady where
  processId := 1
  windowId := 2
  width := 2
  height := 1
  title := "test"

theorem reachable_blank_twoByOne : Reachable (blank twoByOne) :=
  .new (resize_eq_ok_iff.mpr ⟨by simp, ⟨by decide, by decide, by decide, by decide, by decide⟩, rfl⟩)

/-- A window of four pixels by two shows the letterboxed guest. -/
theorem renderScaled_twoByOne_four_by_two :
    renderScaled (blank twoByOne) 4 2 [7, 7, 7, 7, 7, 7, 7, 7] =
      .ok (letterboxed (blank twoByOne) 4 2) :=
  (renderScaled_eq_letterboxed_iff reachable_blank_twoByOne (by decide) (by decide) rfl).mpr
    (by decide)

/-- A window of the guest's width and one more row makes `render_scaled` panic, so not
    every window of a reachable framebuffer is drawn. -/
theorem renderScaled_panics_one_row_higher :
    Reachable (blank twoByOne) ∧ [7, 7, 7, 7].length = 2 * 2 ∧
      renderScaled (blank twoByOne) 2 2 [7, 7, 7, 7] = .error .panic :=
  ⟨reachable_blank_twoByOne, rfl, by decide⟩

end Lsw.Presenter
