import Lsw.Lib.Raster
import Lsw.Agent.CapturePoints

/-!
# Compositing Captured Frames

The windows that a captured window owns are captured on their own.  `composite_captured_frame` lays
their frames over that of the main window, lowest first, each translated by the distance between the
two windows on the screen and clipped to the main frame.

The reference is the painter's algorithm: what a pixel shows depends on the pixels that lie over it
and on nothing else.
-/

namespace Lsw.Agent

open Lsw.Lib

/-! ## Frames -/

/-- `CapturedFrame`. -/
structure CapturedFrame where
  width : UInt32
  height : UInt32
  bgra : List UInt8
  deriving DecidableEq, Repr

/-- `u8::try_from(value)?`. -/
def tryU8 (value : Nat) : Exec String UInt8 :=
  if value < 256 then .ok (.ofNat value)
  else .error (.error "out of range integral type conversion attempted")

/-- `usize::try_from(value)?`. -/
def tryUsize (value : Int) : Exec String Nat :=
  okOr (tryUnsigned 64 value) (.error "out of range integral type conversion attempted")

/-- The bytes that a frame of a size must have. -/
def expectedBytes (width height : UInt32) : Option Nat := do
  checkedMul (← checkedMul width.toNat height.toNat) 4

/-- One channel of the blending loop. -/
def blendChannel (source : List UInt8) (sourceIndex destinationIndex alpha : Nat)
    (destination : List UInt8) (channel : Nat) : Exec String (List UInt8) := do
  let foreground ← index source (← addUsize sourceIndex channel)
  let background ← index destination (← addUsize destinationIndex channel)
  let above ← word 16 (foreground.toNat * alpha)
  let under ← word 16 (background.toNat * (← subUsize 255 alpha))
  let sum ← word 16 ((← word 16 (above + under)) + 127)
  indexSet destination (← addUsize destinationIndex channel) (← tryU8 (sum / 255))

/-- The alpha byte of a blended pixel. -/
def blendAlpha (destinationIndex alpha : Nat) (destination : List UInt8) :
    Exec String (List UInt8) := do
  let backgroundAlpha ← index destination (← addUsize destinationIndex 3)
  let product ← word 16 (backgroundAlpha.toNat * (← subUsize 255 alpha))
  let sum ← word 16 (alpha + (← word 16 (product + 127)) / 255)
  indexSet destination (← addUsize destinationIndex 3) (← tryU8 sum)

/-- A pixel of the source over a pixel of the destination. -/
def overlayPixel (source : List UInt8) (sourceIndex destinationIndex : Nat)
    (destination : List UInt8) : Exec String (List UInt8) := do
  let alpha ← index source (← addUsize sourceIndex 3)
  if alpha = 0 then return destination
  else if alpha = 255 then
    let target ← slice destination destinationIndex (← addUsize destinationIndex 4)
    let pixel ← slice source sourceIndex (← addUsize sourceIndex 4)
    let copied ← copyFromSlice target pixel
    return destination.take destinationIndex ++ copied ++ destination.drop (destinationIndex + 4)
  else
    let blended ← forRange 3 (blendChannel source sourceIndex destinationIndex alpha.toNat)
      destination
    blendAlpha destinationIndex alpha.toNat blended

/-- One pixel of a row. -/
def overlayColumn (source : CapturedFrame) (offsetX destinationY : Int) (sourceY : Nat)
    (destination : CapturedFrame) (sourceX : Nat) : Exec String CapturedFrame := do
  let destinationX ← signed 64 (offsetX + sourceX)
  if destinationX < 0 ∨ destination.width.toNat ≤ destinationX then return destination
  else
    let sourceIndex ← mulUsize (← addUsize (← mulUsize sourceY source.width.toNat) sourceX) 4
    let row ← mulUsize (← tryUsize destinationY) destination.width.toNat
    let destinationIndex ← mulUsize (← addUsize row (← tryUsize destinationX)) 4
    let bgra ← overlayPixel source.bgra sourceIndex destinationIndex destination.bgra
    return { destination with bgra := bgra }

/-- One row of the source. -/
def overlayRow (source : CapturedFrame) (offsetX offsetY : Int) (destination : CapturedFrame)
    (sourceY : Nat) : Exec String CapturedFrame := do
  let destinationY ← signed 64 (offsetY + sourceY)
  if destinationY < 0 ∨ destination.height.toNat ≤ destinationY then return destination
  else
    forRange source.width.toNat (overlayColumn source offsetX destinationY sourceY) destination

/-- `overlay_captured_frame`. -/
def overlayCapturedFrame (destination : CapturedFrame) (destinationBounds : Rect)
    (source : CapturedFrame) (sourceBounds : Rect) : Exec String CapturedFrame := do
  let expectedSource ← okOr (expectedBytes source.width source.height)
    (.error "secondary capture frame byte length overflowed")
  rejectIf (source.bgra.length ≠ expectedSource)
    (.error "secondary capture frame has an invalid byte length")
  let offsetX ← signed 64 (sourceBounds.left.toInt - destinationBounds.left.toInt)
  let offsetY ← signed 64 (sourceBounds.top.toInt - destinationBounds.top.toInt)
  forRange source.height.toNat (overlayRow source offsetX offsetY) destination

/-- `composite_captured_frame`. -/
def compositeCapturedFrame (main : CapturedFrame) (mainBounds : Rect)
    (layers : List (CapturedFrame × Rect)) : Exec String CapturedFrame := do
  let expectedMain ← okOr (expectedBytes main.width main.height)
    (.error "main capture frame byte length overflowed")
  rejectIf (main.bgra.length ≠ expectedMain)
    (.error "main capture frame has an invalid byte length")
  forEach layers (fun output layer => overlayCapturedFrame output mainBounds layer.1 layer.2) main

/-! ## The painter's algorithm -/

/-- The four bytes of a pixel. -/
structure Pixel where
  blue : UInt8
  green : UInt8
  red : UInt8
  alpha : UInt8
  deriving DecidableEq, Repr

/-- The byte nearest to a value between 0 and 255. -/
def nearestByte (value : ℚ) : UInt8 := .ofNat (round value).toNat

/-- A channel of a pixel of some opacity over one that is below it. -/
def blend (alpha foreground background : UInt8) : UInt8 :=
  nearestByte
    ((foreground.toNat * alpha.toNat + background.toNat * (255 - alpha.toNat) : ℚ) / 255)

/-- The opacity of a pixel over one that is below it. -/
def blendOpacity (alpha background : UInt8) : UInt8 :=
  .ofNat (alpha.toNat + (round ((background.toNat * (255 - alpha.toNat) : ℚ) / 255)).toNat)

/-- A pixel over one that is below it. -/
def Pixel.over (foreground background : Pixel) : Pixel :=
  if foreground.alpha = 0 then background
  else if foreground.alpha = 255 then foreground
  else
    { blue := blend foreground.alpha foreground.blue background.blue
      green := blend foreground.alpha foreground.green background.green
      red := blend foreground.alpha foreground.red background.red
      alpha := blendOpacity foreground.alpha background.alpha }

/-- The pixel at a position of a buffer. -/
def pixelOf (bgra : List UInt8) (position : Nat) : Pixel where
  blue := bgra.getD (position * 4) 0
  green := bgra.getD (position * 4 + 1) 0
  red := bgra.getD (position * 4 + 2) 0
  alpha := bgra.getD (position * 4 + 3) 0

/-- The pixel of a frame in a column of a row. -/
def CapturedFrame.pixel (frame : CapturedFrame) (x y : Nat) : Pixel :=
  pixelOf frame.bgra (y * frame.width.toNat + x)

/-- The buffer of a frame has four bytes for each pixel. -/
structure CapturedFrame.WellSized (frame : CapturedFrame) : Prop where
  length_eq : frame.bgra.length = frame.width.toNat * frame.height.toNat * 4
  fits : frame.width.toNat * frame.height.toNat * 4 < usizeSize

/-- The translated area of a layer contains a pixel of the main frame. -/
def Covers (mainBounds : Rect) (layer : CapturedFrame × Rect) (x y : Nat) : Prop :=
  (0 ≤ x - (layer.2.left.toInt - mainBounds.left.toInt) ∧
    x - (layer.2.left.toInt - mainBounds.left.toInt) < layer.1.width.toNat) ∧
  (0 ≤ y - (layer.2.top.toInt - mainBounds.top.toInt) ∧
    y - (layer.2.top.toInt - mainBounds.top.toInt) < layer.1.height.toNat)

instance (mainBounds : Rect) (layer : CapturedFrame × Rect) (x y : Nat) :
    Decidable (Covers mainBounds layer x y) := inferInstanceAs (Decidable (_ ∧ _))

/-- A layer painted over a pixel of the main frame. -/
def paint (mainBounds : Rect) (x y : Nat) (below : Pixel) (layer : CapturedFrame × Rect) : Pixel :=
  if Covers mainBounds layer x y then
    (layer.1.pixel (x - (layer.2.left.toInt - mainBounds.left.toInt)).toNat
      (y - (layer.2.top.toInt - mainBounds.top.toInt)).toNat).over below
  else below

/-- The frame shows the main frame with the layers painted over it, in their order. -/
structure Composited (main : CapturedFrame) (mainBounds : Rect)
    (layers : List (CapturedFrame × Rect)) (output : CapturedFrame) : Prop where
  width_eq : output.width = main.width
  height_eq : output.height = main.height
  wellSized : output.WellSized
  pixel_eq : ∀ x y, x < main.width.toNat → y < main.height.toNat →
    output.pixel x y = layers.foldl (paint mainBounds x y) (main.pixel x y)

/-! ## Blending -/

/-- The quotient that the source rounds is that of the reference. -/
theorem round_div_255 (n : Nat) : round ((n : ℚ) / 255) = ((n + 127) / 255 : Nat) :=
  round_div_odd n 127

theorem cast_sub_255 (alpha : UInt8) : ((255 - alpha.toNat : Nat) : ℚ) = 255 - alpha.toNat := by
  have hle := Nat.le_of_lt_succ alpha.toNat_lt
  rw [Nat.cast_sub hle, Nat.cast_ofNat]

theorem blend_eq (alpha foreground background : UInt8) :
    blend alpha foreground background = .ofNat ((foreground.toNat * alpha.toNat +
      background.toNat * (255 - alpha.toNat) + 127) / 255) := by
  rw [blend, nearestByte, ← cast_sub_255]
  norm_cast
  rw [round_div_255, Int.toNat_natCast]

theorem blendOpacity_eq (alpha background : UInt8) :
    blendOpacity alpha background = .ofNat (alpha.toNat +
      (background.toNat * (255 - alpha.toNat) + 127) / 255) := by
  rw [blendOpacity, ← cast_sub_255]
  norm_cast
  rw [round_div_255, Int.toNat_natCast]

/-- A mean of two bytes is at most the largest byte. -/
theorem mean_le (alpha foreground background : UInt8) :
    foreground.toNat * alpha.toNat + background.toNat * (255 - alpha.toNat) ≤ 255 * 255 := by
  have hforeground := Nat.le_of_lt_succ foreground.toNat_lt
  have hbackground := Nat.le_of_lt_succ background.toNat_lt
  have halpha := Nat.le_of_lt_succ alpha.toNat_lt
  calc foreground.toNat * alpha.toNat + background.toNat * (255 - alpha.toNat)
      ≤ 255 * alpha.toNat + 255 * (255 - alpha.toNat) :=
        Nat.add_le_add (Nat.mul_le_mul_right _ hforeground) (Nat.mul_le_mul_right _ hbackground)
    _ = 255 * 255 := by rw [← Nat.mul_add, Nat.add_sub_cancel' halpha]

/-- The nearest byte to a mean of two bytes is nearest to it among all whole numbers. -/
theorem blend_nearest (alpha foreground background : UInt8) (other : ℤ) :
    |((foreground.toNat * alpha.toNat + background.toNat * (255 - alpha.toNat) : ℚ) / 255) -
        (blend alpha foreground background).toNat| ≤
      |((foreground.toNat * alpha.toNat + background.toNat * (255 - alpha.toNat) : ℚ) / 255) -
        other| := by
  have hmean := mean_le alpha foreground background
  have hbyte : (blend alpha foreground background).toNat = (foreground.toNat * alpha.toNat +
      background.toNat * (255 - alpha.toNat) + 127) / 255 := by
    rw [blend_eq, UInt8.toNat_ofNat_of_lt']
    exact (show _ < 256 by omega)
  rw [hbyte, ← cast_sub_255]
  have hnearest := round_le ((foreground.toNat * alpha.toNat +
    background.toNat * (255 - alpha.toNat) : Nat) / 255 : ℚ) other
  rw [round_div_255] at hnearest
  exact_mod_cast hnearest

theorem tryU8_eq_ok {value : Nat} (h : value < 256) : tryU8 value = .ok (.ofNat value) := if_pos h

/-- A channel is blended, and the other bytes are left alone. -/
theorem blendChannel_eq_ok {source destination : List UInt8} {sourceIndex destinationIndex : Nat}
    {alpha foreground background : UInt8} {channel : Nat}
    (hsource : source[sourceIndex + channel]? = some foreground)
    (hdestination : destination[destinationIndex + channel]? = some background)
    (hsourceFits : sourceIndex + channel < usizeSize)
    (hdestinationFits : destinationIndex + channel < usizeSize) :
    blendChannel source sourceIndex destinationIndex alpha.toNat destination channel =
      .ok (destination.set (destinationIndex + channel) (blend alpha foreground background)) := by
  have hmean := mean_le alpha foreground background
  have halpha := Nat.le_of_lt_succ alpha.toNat_lt
  have hlt : destinationIndex + channel < destination.length :=
    (List.getElem?_eq_some_iff.mp hdestination).1
  unfold blendChannel
  rw [addUsize_eq_ok hsourceFits, ok_bind, index_eq_ok hsource, ok_bind,
    addUsize_eq_ok hdestinationFits, ok_bind, index_eq_ok hdestination, ok_bind,
    word_eq_ok (by omega), ok_bind, subUsize_eq_ok halpha, ok_bind, word_eq_ok (by omega), ok_bind,
    word_eq_ok (by omega), ok_bind, word_eq_ok (by omega), ok_bind, ok_bind,
    tryU8_eq_ok (by omega), ok_bind, indexSet_eq_ok _ hlt, blend_eq]

/-- The alpha byte is blended, and the other bytes are left alone. -/
theorem blendAlpha_eq_ok {destination : List UInt8} {destinationIndex : Nat}
    {alpha background : UInt8} (hdestination : destination[destinationIndex + 3]? = some background)
    (hfits : destinationIndex + 3 < usizeSize) :
    blendAlpha destinationIndex alpha.toNat destination =
      .ok (destination.set (destinationIndex + 3) (blendOpacity alpha background)) := by
  -- The sum stays a byte because a fully opaque foreground would have given 255.
  have hmean : 255 * alpha.toNat + background.toNat * (255 - alpha.toNat) ≤ 255 * 255 :=
    mean_le alpha 255 background
  have halpha := Nat.le_of_lt_succ alpha.toNat_lt
  have hlt : destinationIndex + 3 < destination.length :=
    (List.getElem?_eq_some_iff.mp hdestination).1
  unfold blendAlpha
  rw [addUsize_eq_ok hfits, ok_bind, index_eq_ok hdestination, ok_bind, subUsize_eq_ok halpha,
    ok_bind, word_eq_ok (by omega), ok_bind, word_eq_ok (by omega), ok_bind, word_eq_ok (by omega),
    ok_bind, ok_bind, tryU8_eq_ok (by omega), ok_bind, indexSet_eq_ok _ hlt, blendOpacity_eq]

/-! ## One pixel -/

/-- The buffer with another pixel at a position. -/
def setPixel (bgra : List UInt8) (position : Nat) (pixel : Pixel) : List UInt8 :=
  (((bgra.set (position * 4) pixel.blue).set (position * 4 + 1) pixel.green).set
    (position * 4 + 2) pixel.red).set (position * 4 + 3) pixel.alpha

@[simp] theorem length_setPixel (bgra : List UInt8) (position : Nat) (pixel : Pixel) :
    (setPixel bgra position pixel).length = bgra.length := by
  simp [setPixel]

/-- Writing one pixel leaves the bytes of the others alone. -/
theorem getElem?_setPixel_of_outside {bgra : List UInt8} {position i : Nat} (pixel : Pixel)
    (h : i < position * 4 ∨ position * 4 + 4 ≤ i) :
    (setPixel bgra position pixel)[i]? = bgra[i]? := by
  rw [setPixel, List.getElem?_set_ne (by omega), List.getElem?_set_ne (by omega),
    List.getElem?_set_ne (by omega), List.getElem?_set_ne (by omega)]

/-- Writing one pixel changes that pixel and no other. -/
theorem pixelOf_setPixel {bgra : List UInt8} {position other : Nat} (pixel : Pixel)
    (h : position * 4 + 3 < bgra.length) :
    pixelOf (setPixel bgra position pixel) other =
      if other = position then pixel else pixelOf bgra other := by
  by_cases heq : other = position
  · subst heq
    rw [if_pos rfl]
    have hblue : other * 4 < bgra.length := by omega
    have hgreen : other * 4 + 1 < bgra.length := by omega
    have hred : other * 4 + 2 < bgra.length := by omega
    simp [pixelOf, setPixel, h, hblue, hgreen, hred]
  · rw [if_neg heq]
    simp only [pixelOf, List.getD_eq_getElem?_getD]
    rw [getElem?_setPixel_of_outside pixel (by omega), getElem?_setPixel_of_outside pixel (by omega),
      getElem?_setPixel_of_outside pixel (by omega), getElem?_setPixel_of_outside pixel (by omega)]

/-- The bytes of a pixel, copied into the buffer. -/
theorem copy_eq_setPixel {bgra : List UInt8} {position : Nat} (pixel : Pixel)
    (h : position * 4 + 4 ≤ bgra.length) :
    bgra.take (position * 4) ++ [pixel.blue, pixel.green, pixel.red, pixel.alpha] ++
      bgra.drop (position * 4 + 4) = setPixel bgra position pixel := by
  -- Four bytes of the buffer are taken off for each position before the pixel.
  induction position generalizing bgra with
  | zero =>
    match bgra, h with
    | _ :: _ :: _ :: _ :: rest, _ => simp [setPixel]
  | succ position ih =>
    match bgra, h with
    | b :: g :: r :: a :: rest, h =>
      have hrest : position * 4 + 4 ≤ rest.length := by
        simp only [List.length_cons] at h
        omega
      have hindex : (position + 1) * 4 = position * 4 + 4 := by omega
      have hset := ih hrest
      simp only [setPixel] at hset ⊢
      rw [hindex]
      simp only [List.take_succ_cons, List.drop_succ_cons, List.set_cons_succ, List.cons_append,
        hset]

/-- The bytes of the pixel at a position. -/
theorem getElem?_pixelOf {bgra : List UInt8} {position : Nat}
    (h : position * 4 + 3 < bgra.length) :
    bgra[position * 4]? = some (pixelOf bgra position).blue ∧
      bgra[position * 4 + 1]? = some (pixelOf bgra position).green ∧
      bgra[position * 4 + 2]? = some (pixelOf bgra position).red ∧
      bgra[position * 4 + 3]? = some (pixelOf bgra position).alpha := by
  have hbyte : ∀ i, i < bgra.length → bgra[i]? = some (bgra.getD i 0) := by
    intro i hi
    rw [List.getD_eq_getElem?_getD, List.getElem?_eq_getElem hi, Option.getD_some]
  exact ⟨hbyte _ (by omega), hbyte _ (by omega), hbyte _ (by omega), hbyte _ h⟩

/-- The bytes of the pixel at a position, as one slice. -/
theorem slice_pixelOf {bgra : List UInt8} {position : Nat} (h : position * 4 + 4 ≤ bgra.length) :
    slice (ε := String) bgra (position * 4) (position * 4 + 4) =
      .ok [(pixelOf bgra position).blue, (pixelOf bgra position).green,
        (pixelOf bgra position).red, (pixelOf bgra position).alpha] := by
  obtain ⟨hblue, hgreen, hred, halpha⟩ := getElem?_pixelOf h
  rw [slice_eq_ok (by omega) h]
  congr 1
  apply List.ext_getElem?
  intro i
  match i with
  | 0 => simp [hblue]
  | 1 => simp [hgreen]
  | 2 => simp [hred]
  | 3 => simp [halpha]
  | i + 4 => simp

/-- Writing the pixel that is there changes nothing. -/
theorem setPixel_pixelOf {bgra : List UInt8} {position : Nat}
    (h : position * 4 + 3 < bgra.length) : setPixel bgra position (pixelOf bgra position) = bgra := by
  obtain ⟨hblue, hgreen, hred, halpha⟩ := getElem?_pixelOf h
  have hself : ∀ i byte, bgra[i]? = some byte → bgra.set i byte = bgra := by
    intro i byte hbyte
    obtain ⟨hlt, rfl⟩ := List.getElem?_eq_some_iff.mp hbyte
    exact List.set_getElem_self hlt
  rw [setPixel, hself _ _ hblue, hself _ _ hgreen, hself _ _ hred, hself _ _ halpha]

/-- The loop over the colours and the alpha byte after it. -/
theorem blendPixel_eq_ok {source destination : List UInt8} {sourcePosition position : Nat}
    (hsource : sourcePosition * 4 + 4 ≤ source.length)
    (hdestination : position * 4 + 4 ≤ destination.length)
    (hsourceFits : sourcePosition * 4 + 4 < usizeSize)
    (hfits : position * 4 + 4 < usizeSize) (alpha : UInt8) :
    (forRange 3 (blendChannel source (sourcePosition * 4) (position * 4) alpha.toNat) destination >>=
        blendAlpha (position * 4) alpha.toNat) =
      .ok (setPixel destination position
        { blue := blend alpha (pixelOf source sourcePosition).blue (pixelOf destination position).blue
          green :=
            blend alpha (pixelOf source sourcePosition).green (pixelOf destination position).green
          red := blend alpha (pixelOf source sourcePosition).red (pixelOf destination position).red
          alpha := blendOpacity alpha (pixelOf destination position).alpha }) := by
  obtain ⟨hblue, hgreen, hred, -⟩ :=
    getElem?_pixelOf (show sourcePosition * 4 + 3 < source.length by omega)
  obtain ⟨hblue', hgreen', hred', halpha'⟩ :=
    getElem?_pixelOf (show position * 4 + 3 < destination.length by omega)
  -- Each channel reads a byte that the earlier ones have left alone.
  have hother : ∀ (bytes : List UInt8) (i j : Nat) (byte : UInt8), i ≠ j →
      (bytes.set (position * 4 + i) byte)[position * 4 + j]? = bytes[position * 4 + j]? := by
    intro bytes i j byte hne
    exact List.getElem?_set_ne (by omega)
  have hblue : source[sourcePosition * 4 + 0]? = _ := hblue
  have hblue' : destination[position * 4 + 0]? = _ := hblue'
  have hrange : List.range 3 = [0, 1, 2] := rfl
  rw [forRange, hrange, forEach_cons, blendChannel_eq_ok hblue hblue' (by omega) (by omega), ok_bind,
    forEach_cons, blendChannel_eq_ok hgreen ((hother _ 0 1 _ (by omega)).trans hgreen') (by omega)
      (by omega), ok_bind,
    forEach_cons, blendChannel_eq_ok hred ((hother _ 1 2 _ (by omega)).trans
      ((hother _ 0 2 _ (by omega)).trans hred')) (by omega) (by omega), ok_bind, forEach_nil, ok_bind,
    blendAlpha_eq_ok ((hother _ 2 3 _ (by omega)).trans ((hother _ 1 3 _ (by omega)).trans
      ((hother _ 0 3 _ (by omega)).trans halpha'))) (by omega)]
  rfl

/-- A pixel of the source is put over one of the destination. -/
theorem overlayPixel_eq_ok {source destination : List UInt8} {sourcePosition position : Nat}
    (hsource : sourcePosition * 4 + 4 ≤ source.length)
    (hdestination : position * 4 + 4 ≤ destination.length)
    (hsourceFits : sourcePosition * 4 + 4 < usizeSize)
    (hfits : position * 4 + 4 < usizeSize) :
    overlayPixel source (sourcePosition * 4) (position * 4) destination =
      .ok (setPixel destination position
        ((pixelOf source sourcePosition).over (pixelOf destination position))) := by
  obtain ⟨-, -, -, halpha⟩ := getElem?_pixelOf (show sourcePosition * 4 + 3 < source.length by omega)
  unfold overlayPixel
  rw [addUsize_eq_ok (by omega), ok_bind, index_eq_ok halpha, ok_bind, Pixel.over]
  by_cases hzero : (pixelOf source sourcePosition).alpha = 0
  · rw [if_pos hzero, if_pos hzero, setPixel_pixelOf (by omega)]
    rfl
  rw [if_neg hzero, if_neg hzero]
  by_cases hfull : (pixelOf source sourcePosition).alpha = 255
  · rw [if_pos hfull, if_pos hfull, addUsize_eq_ok hfits, ok_bind, slice_pixelOf hdestination,
      ok_bind, addUsize_eq_ok hsourceFits, ok_bind, slice_pixelOf hsource, ok_bind,
      copyFromSlice_eq_ok (by rfl), ok_bind, copy_eq_setPixel _ hdestination]
    rfl
  · rw [if_neg hfull, if_neg hfull]
    exact blendPixel_eq_ok hsource hdestination hsourceFits hfits _

/-! ## One layer -/

/-- The pixels of the main frame that a layer has been painted over, when some rows of the layer and
    some columns of the next row are done. -/
def Reached (layer : CapturedFrame) (offsetX offsetY : Int) (rows columns x y : Nat) : Prop :=
  (0 ≤ x - offsetX ∧ x - offsetX < layer.width.toNat) ∧
  (0 ≤ y - offsetY ∧ (y - offsetY < rows ∨ y - offsetY = rows ∧ x - offsetX < columns))

instance (layer : CapturedFrame) (offsetX offsetY : Int) (rows columns x y : Nat) :
    Decidable (Reached layer offsetX offsetY rows columns x y) :=
  inferInstanceAs (Decidable (_ ∧ _))

/-- The invariant of both loops of `overlay_captured_frame`. -/
structure PaintedSoFar (before layer : CapturedFrame) (offsetX offsetY : Int) (rows columns : Nat)
    (output : CapturedFrame) : Prop where
  width_eq : output.width = before.width
  height_eq : output.height = before.height
  length_eq : output.bgra.length = before.bgra.length
  pixel_eq : ∀ x y, x < before.width.toNat → y < before.height.toNat →
    output.pixel x y =
      if Reached layer offsetX offsetY rows columns x y then
        (layer.pixel (x - offsetX).toNat (y - offsetY).toNat).over (before.pixel x y)
      else before.pixel x y

section Layer

variable {before layer output : CapturedFrame} {offsetX offsetY : Int} {rows columns : Nat}

/-- Steps that reach no further pixel keep the invariant. -/
theorem PaintedSoFar.of_reached_iff {rows' columns' : Nat}
    (h : PaintedSoFar before layer offsetX offsetY rows columns output)
    (hiff : ∀ x y, x < before.width.toNat → y < before.height.toNat →
      (Reached layer offsetX offsetY rows' columns' x y ↔
        Reached layer offsetX offsetY rows columns x y)) :
    PaintedSoFar before layer offsetX offsetY rows' columns' output := by
  refine { h with pixel_eq := ?_ }
  intro x y hx hy
  rw [h.pixel_eq x y hx hy]
  simp only [hiff x y hx hy]

/-- The offsets between two windows on the screen. -/
structure Offsets (offsetX offsetY : Int) : Prop where
  x_low : -2 ^ 32 ≤ offsetX
  x_high : offsetX ≤ 2 ^ 32
  y_low : -2 ^ 32 ≤ offsetY
  y_high : offsetY ≤ 2 ^ 32

/-- A place in a frame is that of one of its pixels. -/
theorem CapturedFrame.WellSized.position {frame : CapturedFrame} (h : frame.WellSized) {x y : Nat}
    (hx : x < frame.width.toNat) (hy : y < frame.height.toNat) :
    (y * frame.width.toNat + x) * 4 + 4 ≤ frame.bgra.length ∧
      (y * frame.width.toNat + x) * 4 + 4 < usizeSize := by
  have hposition := rowMajor_lt hx hy
  have hlength := h.length_eq
  have hfits := h.fits
  constructor <;> omega

theorem tryUsize_eq_ok {value : Int} (h : 0 ≤ value) (h' : value < 2 ^ 64) :
    tryUsize value = .ok value.toNat := by
  rw [tryUsize, tryUnsigned_eq_some h h', okOr_some]

/-- The pixel that is overlaid lies in the main frame. -/
theorem overlayColumn_eq_ok (hwidth : output.width = before.width)
    (hlength : output.bgra.length = before.bgra.length) (hbefore : before.WellSized)
    (hlayer : layer.WellSized) (hrow : rows < layer.height.toNat)
    (hcolumn : columns < layer.width.toNat) {x y : Nat} (hx : x < before.width.toNat)
    (hy : y < before.height.toNat) (hoffset : offsetX + columns = x) :
    overlayColumn layer offsetX y rows output columns =
      .ok { output with
        bgra := setPixel output.bgra (y * before.width.toNat + x)
          ((layer.pixel columns rows).over (pixelOf output.bgra (y * before.width.toNat + x))) } := by
  obtain ⟨hsource, hsourceFits⟩ := hlayer.position hcolumn hrow
  obtain ⟨hdestination, hfits⟩ := hbefore.position hx hy
  rw [← hlength] at hdestination
  have hxsize := before.width.toNat_lt
  have hysize := before.height.toNat_lt
  have hsigned : FitsSigned 64 (x : Int) := by
    constructor <;> omega
  have hinside : ¬ ((x : Int) < 0 ∨ (before.width.toNat : Int) ≤ x) := by omega
  unfold overlayColumn
  rw [hoffset, signed_eq_ok hsigned, ok_bind, hwidth, if_neg hinside,
    tryUsize_eq_ok (by omega) (by omega), tryUsize_eq_ok (by omega) (by omega),
    Int.toNat_natCast, Int.toNat_natCast,
    mulUsize_eq_ok (by omega), ok_bind, addUsize_eq_ok (by omega), ok_bind,
    mulUsize_eq_ok (by omega), ok_bind, ok_bind, mulUsize_eq_ok (by omega), ok_bind, ok_bind,
    addUsize_eq_ok (by omega), ok_bind, mulUsize_eq_ok (by omega), ok_bind,
    overlayPixel_eq_ok hsource hdestination hsourceFits hfits, ok_bind]
  rfl

/-- A column of a row that meets the main frame. -/
theorem overlayColumn_paints (hbefore : before.WellSized) (hlayer : layer.WellSized)
    (hoffsets : Offsets offsetX offsetY) (hrow : rows < layer.height.toNat) {y : Nat}
    (hy : y < before.height.toNat) (hoffset : offsetY + rows = y)
    (hcolumn : columns < layer.width.toNat)
    (hinv : PaintedSoFar before layer offsetX offsetY rows columns output) :
    ∃ output', overlayColumn layer offsetX y rows output columns = .ok output' ∧
      PaintedSoFar before layer offsetX offsetY rows (columns + 1) output' := by
  have hwidth := layer.width.toNat_lt
  have hlow := hoffsets.x_low
  have hhigh := hoffsets.x_high
  by_cases houtside : offsetX + columns < 0 ∨ (before.width.toNat : Int) ≤ offsetX + columns
  · -- The pixel falls beside the main frame, so no pixel of that is reached by it.
    have hsigned : FitsSigned 64 (offsetX + columns) := by
      constructor <;> omega
    refine ⟨output, ?_, hinv.of_reached_iff ?_⟩
    · unfold overlayColumn
      rw [signed_eq_ok hsigned, ok_bind, hinv.width_eq, if_pos houtside]
      rfl
    · intro x y hx hy
      unfold Reached
      omega
  -- It falls on the main frame, on the pixel in column `x`.
  · obtain ⟨x, hx⟩ : ∃ x : Nat, offsetX + columns = x :=
      ⟨(offsetX + columns).toNat, (Int.toNat_of_nonneg (by omega)).symm⟩
    have hxlt : x < before.width.toNat := by omega
    have hlength := hinv.length_eq
    refine ⟨_, overlayColumn_eq_ok hinv.width_eq hlength hbefore hlayer hrow hcolumn hxlt hy hx,
      hinv.width_eq, hinv.height_eq, (length_setPixel _ _ _).trans hlength, ?_⟩
    intro x' y' hx' hy'
    have hposition : (y * before.width.toNat + x) * 4 + 3 < output.bgra.length := by
      have := (hbefore.position hxlt hy).1
      omega
    have hpixel := hinv.pixel_eq x' y' hx' hy'
    simp only [CapturedFrame.pixel, hinv.width_eq] at hpixel ⊢
    rw [pixelOf_setPixel _ hposition]
    simp only [rowMajor_inj hx' hxlt]
    -- That pixel is painted now, any other one is as it was.
    by_cases hat : x' = x ∧ y' = y
    · obtain ⟨rfl, rfl⟩ := hat
      have hbefore' : ¬ Reached layer offsetX offsetY rows columns x' y' := by
        unfold Reached
        omega
      have hafter : Reached layer offsetX offsetY rows (columns + 1) x' y' := by
        unfold Reached
        omega
      have hsourceX : ((x' : Int) - offsetX).toNat = columns := by omega
      have hsourceY : ((y' : Int) - offsetY).toNat = rows := by omega
      rw [if_pos ⟨rfl, rfl⟩, hpixel, if_neg hbefore', if_pos hafter, hsourceX, hsourceY]
    · have hiff : Reached layer offsetX offsetY rows (columns + 1) x' y' ↔
          Reached layer offsetX offsetY rows columns x' y' := by
        unfold Reached
        omega
      rw [if_neg hat, hpixel]
      simp only [hiff]

/-- A row of the layer. -/
theorem overlayRow_paints (hbefore : before.WellSized) (hlayer : layer.WellSized)
    (hoffsets : Offsets offsetX offsetY) (hrow : rows < layer.height.toNat)
    (hinv : PaintedSoFar before layer offsetX offsetY rows 0 output) :
    ∃ output', overlayRow layer offsetX offsetY output rows = .ok output' ∧
      PaintedSoFar before layer offsetX offsetY (rows + 1) 0 output' := by
  have hheight := layer.height.toNat_lt
  have hlow := hoffsets.y_low
  have hhigh := hoffsets.y_high
  have hsigned : FitsSigned 64 (offsetY + rows) := by
    constructor <;> omega
  unfold overlayRow
  rw [signed_eq_ok hsigned, ok_bind, hinv.height_eq]
  by_cases houtside : offsetY + rows < 0 ∨ (before.height.toNat : Int) ≤ offsetY + rows
  · -- The row falls above or below the main frame.
    rw [if_pos houtside]
    refine ⟨output, rfl, hinv.of_reached_iff ?_⟩
    intro x y hx hy
    unfold Reached
    omega
  · obtain ⟨y, hy⟩ : ∃ y : Nat, offsetY + rows = y :=
      ⟨(offsetY + rows).toNat, (Int.toNat_of_nonneg (by omega)).symm⟩
    rw [if_neg houtside, hy]
    obtain ⟨output', houtput, hpainted⟩ := forRange_spec
      (fun columns t => PaintedSoFar before layer offsetX offsetY rows columns t) hinv
      (fun column t hcolumn ht =>
        overlayColumn_paints hbefore hlayer hoffsets hrow (by omega) hy hcolumn ht)
    refine ⟨output', houtput, hpainted.of_reached_iff ?_⟩
    -- A finished row is the same as no column of the next one.
    intro x y hx hy
    unfold Reached
    omega

end Layer

/-! ## All layers -/

theorem expectedBytes_eq_some {frame : CapturedFrame} (h : frame.WellSized) :
    expectedBytes frame.width frame.height = some frame.bgra.length := by
  have hfits := h.fits
  rw [expectedBytes, checkedMul_eq_some (by omega), Option.bind_eq_bind, Option.bind_some,
    checkedMul_eq_some hfits, h.length_eq]

/-- A layer is painted over the frame below it. -/
theorem overlayCapturedFrame_paints {before : CapturedFrame} {mainBounds : Rect}
    {layer : CapturedFrame × Rect} (hbefore : before.WellSized) (hlayer : layer.1.WellSized) :
    ∃ output, overlayCapturedFrame before mainBounds layer.1 layer.2 = .ok output ∧
      output.width = before.width ∧ output.height = before.height ∧ output.WellSized ∧
      ∀ x y, x < before.width.toNat → y < before.height.toNat →
        output.pixel x y = paint mainBounds x y (before.pixel x y) layer := by
  -- Corners are 32 bits wide, so that no difference of two overflows 64.
  have hleft := layer.2.left.toInt_lt
  have hleft' := layer.2.left.le_toInt
  have htop := layer.2.top.toInt_lt
  have htop' := layer.2.top.le_toInt
  have hmainLeft := mainBounds.left.toInt_lt
  have hmainLeft' := mainBounds.left.le_toInt
  have hmainTop := mainBounds.top.toInt_lt
  have hmainTop' := mainBounds.top.le_toInt
  have hx : FitsSigned 64 (layer.2.left.toInt - mainBounds.left.toInt) := by
    constructor <;> omega
  have hy : FitsSigned 64 (layer.2.top.toInt - mainBounds.top.toInt) := by
    constructor <;> omega
  have hoffsets : Offsets (layer.2.left.toInt - mainBounds.left.toInt)
      (layer.2.top.toInt - mainBounds.top.toInt) := by
    constructor <;> omega
  -- Before the first row nothing is painted.
  have hblank : PaintedSoFar before layer.1 (layer.2.left.toInt - mainBounds.left.toInt)
      (layer.2.top.toInt - mainBounds.top.toInt) 0 0 before := by
    refine ⟨rfl, rfl, rfl, ?_⟩
    intro x y _ _
    rw [if_neg]
    unfold Reached
    omega
  -- Row by row the frame is painted down to its last row.
  obtain ⟨output, houtput, hpainted⟩ := forRange_spec
    (fun rows t => PaintedSoFar before layer.1 _ _ rows 0 t) hblank
    (fun row t hrow ht => overlayRow_paints hbefore hlayer hoffsets hrow ht)
  refine ⟨output, ?_, hpainted.width_eq, hpainted.height_eq, ⟨?_, ?_⟩, ?_⟩
  -- No check of the source fails.
  · unfold overlayCapturedFrame
    rw [expectedBytes_eq_some hlayer, okOr_some, ok_bind, rejectIf_of_not _ (by simp), ok_bind,
      signed_eq_ok hx, ok_bind, signed_eq_ok hy, ok_bind, houtput]
  · rw [hpainted.length_eq, hpainted.width_eq, hpainted.height_eq, hbefore.length_eq]
  · rw [hpainted.width_eq, hpainted.height_eq]
    exact hbefore.fits
  · intro x y hxlt hylt
    rw [hpainted.pixel_eq x y hxlt hylt, paint]
    -- A pixel is reached exactly when the layer covers it.
    have hiff : Reached layer.1 (layer.2.left.toInt - mainBounds.left.toInt)
        (layer.2.top.toInt - mainBounds.top.toInt) layer.1.height.toNat 0 x y ↔
        Covers mainBounds layer x y := by
      unfold Reached Covers
      omega
    simp only [hiff]

/-- A pixel that no layer covers stays as it is. -/
theorem foldl_paint_of_not_covers {mainBounds : Rect} {layers : List (CapturedFrame × Rect)}
    {x y : Nat} (h : ∀ layer ∈ layers, ¬ Covers mainBounds layer x y) (pixel : Pixel) :
    layers.foldl (paint mainBounds x y) pixel = pixel := by
  induction layers generalizing pixel with
  | nil => rfl
  | cons layer layers ih =>
    have hpaint : paint mainBounds x y pixel layer = pixel := if_neg (h layer List.mem_cons_self)
    rw [List.foldl_cons, hpaint]
    exact ih (fun other hother => h other (List.mem_cons_of_mem _ hother)) pixel

/-- For every main frame and every list of layers of the right lengths, wherever their windows lie,
    the composite is returned and is that of the painter's algorithm; a pixel that no layer covers
    is that of the main frame. -/
theorem composite_is_painted (main : CapturedFrame) (mainBounds : Rect)
    (layers : List (CapturedFrame × Rect)) (hmain : main.WellSized)
    (hlayers : ∀ layer ∈ layers, layer.1.WellSized) :
    ∃ output, compositeCapturedFrame main mainBounds layers = .ok output ∧
      Composited main mainBounds layers output ∧
      ∀ x y, x < main.width.toNat → y < main.height.toNat →
        (∀ layer ∈ layers, ¬ Covers mainBounds layer x y) → output.pixel x y = main.pixel x y := by
  have hloop : ∃ output, forEach layers
      (fun output layer => overlayCapturedFrame output mainBounds layer.1 layer.2) main =
        .ok output ∧ Composited main mainBounds layers output := by
    -- The invariant: the layers painted so far are the frame below the next one.
    apply forEach_spec (fun seen t => Composited main mainBounds seen t)
    · exact ⟨rfl, rfl, hmain, fun _ _ _ _ => rfl⟩
    · intro seen layer rest below hsplit hseen
      have hlayer : layer.1.WellSized := hlayers layer (by rw [hsplit]; simp)
      obtain ⟨above, habove, hwidth, hheight, hsized, hpixel⟩ :=
        overlayCapturedFrame_paints hseen.wellSized hlayer
      refine ⟨above, habove, hwidth.trans hseen.width_eq, hheight.trans hseen.height_eq, hsized, ?_⟩
      intro x y hx hy
      rw [hpixel x y (hseen.width_eq ▸ hx) (hseen.height_eq ▸ hy), hseen.pixel_eq x y hx hy,
        List.foldl_append, List.foldl_cons, List.foldl_nil]
  obtain ⟨output, houtput, hcomposited⟩ := hloop
  refine ⟨output, ?_, hcomposited, ?_⟩
  · unfold compositeCapturedFrame
    rw [expectedBytes_eq_some hmain, okOr_some, ok_bind, rejectIf_of_not _ (by simp), ok_bind,
      houtput]
  · intro x y hx hy huncovered
    rw [hcomposited.pixel_eq x y hx hy, foldl_paint_of_not_covers huncovered]

/-- A frame of some pixels, row by row. -/
def frameOf (width height : UInt32) (pixels : List Pixel) : CapturedFrame :=
  ⟨width, height, pixels.flatMap fun pixel => [pixel.blue, pixel.green, pixel.red, pixel.alpha]⟩

/-- A window, and two half transparent ones that overlap on it and go over its lower edge. -/
def mainFrame : CapturedFrame :=
  frameOf 2 2 [⟨10, 20, 30, 255⟩, ⟨11, 21, 31, 255⟩, ⟨12, 22, 32, 255⟩, ⟨13, 23, 33, 255⟩]

def lowerFrame : CapturedFrame :=
  frameOf 2 2 [⟨40, 50, 60, 64⟩, ⟨41, 51, 61, 64⟩, ⟨42, 52, 62, 64⟩, ⟨43, 53, 63, 64⟩]

def upperFrame : CapturedFrame :=
  frameOf 2 2 [⟨70, 80, 90, 128⟩, ⟨71, 81, 91, 128⟩, ⟨72, 82, 92, 128⟩, ⟨73, 83, 93, 128⟩]

/-- The lower one begins at the last pixel of the window, the upper one at the pixel in front of it. -/
def overlappingLayers : List (CapturedFrame × Rect) :=
  [(lowerFrame, ⟨6, 6, 8, 8⟩), (upperFrame, ⟨5, 6, 7, 8⟩)]

/-- The upper row stays as it is; in the lower one, the upper layer is painted over the window, and
    over the lower layer. -/
theorem overlapping_layers_are_painted :
    ∃ output, compositeCapturedFrame mainFrame ⟨5, 5, 7, 7⟩ overlappingLayers = .ok output ∧
      output.pixel 0 0 = ⟨10, 20, 30, 255⟩ ∧ output.pixel 1 0 = ⟨11, 21, 31, 255⟩ ∧
      output.pixel 0 1 = Pixel.over ⟨70, 80, 90, 128⟩ ⟨12, 22, 32, 255⟩ ∧
      output.pixel 1 1 =
        Pixel.over ⟨71, 81, 91, 128⟩ (Pixel.over ⟨40, 50, 60, 64⟩ ⟨13, 23, 33, 255⟩) := by
  have hsize : ∀ frame : CapturedFrame, frame.width = 2 → frame.height = 2 →
      frame.bgra.length = 16 → frame.WellSized := by
    rintro frame hwidth hheight hlength
    constructor
    · rw [hlength, hwidth, hheight]
      rfl
    · rw [hwidth, hheight]
      decide
  obtain ⟨output, houtput, hcomposited, hsame⟩ :=
    composite_is_painted mainFrame ⟨5, 5, 7, 7⟩ overlappingLayers (hsize _ rfl rfl rfl)
      (List.forall_mem_cons.mpr ⟨hsize _ rfl rfl rfl,
        List.forall_mem_singleton.mpr (hsize _ rfl rfl rfl)⟩)
  refine ⟨output, houtput, ?_, ?_, ?_, ?_⟩
  · exact hsame 0 0 (by decide) (by decide) (by decide)
  · exact hsame 1 0 (by decide) (by decide) (by decide)
  · rw [hcomposited.pixel_eq 0 1 (by decide) (by decide), overlappingLayers, List.foldl_cons,
      List.foldl_cons, List.foldl_nil, paint, if_pos (by decide), paint, if_neg (by decide)]
    rfl
  · rw [hcomposited.pixel_eq 1 1 (by decide) (by decide), overlappingLayers, List.foldl_cons,
      List.foldl_cons, List.foldl_nil, paint, if_pos (by decide), paint, if_pos (by decide)]
    rfl

end Lsw.Agent
