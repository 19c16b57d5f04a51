import Lsw.Lib.Word

/-!
# Points of a Capture

A pointer event names a point of the captured frame.  `map_capture_point` scales it into the
rectangle of the window on the screen, whose size may differ a little from that of the capture, and
`normalize_absolute_axis` scales each coordinate of that point to the range that Windows expects of
absolute input.

Every step that the source leaves unchecked panics here when it does not fit its type.
-/

namespace Lsw.Agent

open Lsw.Lib

/-! ## Rectangles and bounds -/

/-- `RECT`. -/
structure Rect where
  left : Int32
  top : Int32
  right : Int32
  bottom : Int32
  deriving DecidableEq, Repr

/-- `CaptureBounds`. -/
structure CaptureBounds where
  left : Int32
  top : Int32
  width : UInt32
  height : UInt32
  deriving DecidableEq, Repr

/-- `MAX_CAPTURE_BOUNDS_DELTA`. -/
def maxCaptureBoundsDelta : Int := 64

/-- `u32::try_from(value).ok()`. -/
def tryU32 (value : Int) : Option UInt32 := (tryUnsigned 32 value).map UInt32.ofNat

/-- `i32::try_from(value).ok()`. -/
def tryI32 (value : Int) : Option Int32 := (trySigned 32 value).map Int32.ofInt

/-- `capture_bounds_from_rect`. -/
def captureBoundsFromRect (rectangle : Rect) (captureSize : UInt32 × UInt32) :
    Exec Empty (Option CaptureBounds) := do
  let width ← signed 64 (rectangle.right.toInt - rectangle.left.toInt)
  let height ← signed 64 (rectangle.bottom.toInt - rectangle.top.toInt)
  if width ≤ 0 ∨ height ≤ 0 ∨ captureSize.1 = 0 ∨ captureSize.2 = 0 then return none
  else
    let deltaX ← signed 64 |← signed 64 (width - captureSize.1.toNat)|
    let deltaY ← signed 64 |← signed 64 (height - captureSize.2.toNat)|
    if maxCaptureBoundsDelta < deltaX ∨ maxCaptureBoundsDelta < deltaY then return none
    else return do
      let width ← tryU32 width
      let height ← tryU32 height
      return ⟨rectangle.left, rectangle.top, width, height⟩

/-- One coordinate of `map_capture_point`. -/
def mapCoordinate (origin : Int32) (extent captureExtent coordinate : UInt32) : Option Int32 := do
  let product ← checkedMul coordinate.toNat extent.toNat
  let scaled ← trySigned 64 (product / captureExtent.toNat : Nat)
  let screen ← trySigned 64 (origin.toInt + scaled)
  tryI32 screen

/-- `map_capture_point`. -/
def mapCapturePoint (bounds : CaptureBounds) (captureSize : UInt32 × UInt32) (x y : UInt32) :
    Option (Int32 × Int32) :=
  if captureSize.1 = 0 ∨ captureSize.2 = 0 ∨ captureSize.1 ≤ x ∨ captureSize.2 ≤ y then none
  else do
    let screenX ← mapCoordinate bounds.left bounds.width captureSize.1 x
    let screenY ← mapCoordinate bounds.top bounds.height captureSize.2 y
    return (screenX, screenY)

/-- `normalize_absolute_axis`. -/
def normalizeAbsoluteAxis (coordinate origin extent : Int32) : Exec Empty (Option Int32) :=
  if extent ≤ 1 then return none
  else do
    let relative ← signed 64 (coordinate.toInt - origin.toInt)
    if relative < 0 ∨ extent.toInt ≤ relative then return none
    else
      let steps ← signed 32 (extent.toInt - 1)
      let product ← signed 64 (relative * 65535)
      return tryI32 ((← signed 64 (product + steps / 2)) / steps)

/-! ## What is meant -/

/-- The points of a capture are mapped into the rectangle, in their order, and one to one where the
    capture has the size of the rectangle. -/
structure MapsInto (rectangle : Rect) (captureSize : UInt32 × UInt32) (bounds : CaptureBounds) :
    Prop where
  inside : ∀ x y, x < captureSize.1 → y < captureSize.2 →
    ∃ screenX screenY, mapCapturePoint bounds captureSize x y = some (screenX, screenY) ∧
      rectangle.left ≤ screenX ∧ screenX < rectangle.right ∧
      rectangle.top ≤ screenY ∧ screenY < rectangle.bottom
  monotone : ∀ x x' y y' p p', mapCapturePoint bounds captureSize x y = some p →
    mapCapturePoint bounds captureSize x' y' = some p' →
    (x ≤ x' → p.1 ≤ p'.1) ∧ (y ≤ y' → p.2 ≤ p'.2)
  exact : ∀ x y p, mapCapturePoint bounds captureSize x y = some p →
    (bounds.width = captureSize.1 → p.1.toInt = rectangle.left.toInt + x.toNat) ∧
    (bounds.height = captureSize.2 → p.2.toInt = rectangle.top.toInt + y.toNat)

/-- The coordinates of an axis are mapped to the whole range from 0 to 65535, in their order, and
    without loss where they fit. -/
structure NormalizesAxis (origin extent : Int32) : Prop where
  inRange : ∀ coordinate : Int32, origin.toInt ≤ coordinate.toInt →
    coordinate.toInt < origin.toInt + extent.toInt →
    ∃ value, normalizeAbsoluteAxis coordinate origin extent = .ok (some value) ∧
      0 ≤ value.toInt ∧ value.toInt ≤ 65535
  monotone : ∀ coordinate coordinate' value value' : Int32,
    normalizeAbsoluteAxis coordinate origin extent = .ok (some value) →
    normalizeAbsoluteAxis coordinate' origin extent = .ok (some value') →
    coordinate ≤ coordinate' → value ≤ value'
  first : normalizeAbsoluteAxis origin origin extent = .ok (some 0)
  last : ∀ coordinate : Int32, coordinate.toInt = origin.toInt + extent.toInt - 1 →
    normalizeAbsoluteAxis coordinate origin extent = .ok (some 65535)
  injective : extent.toInt ≤ 65536 → ∀ coordinate coordinate' value : Int32,
    normalizeAbsoluteAxis coordinate origin extent = .ok (some value) →
    normalizeAbsoluteAxis coordinate' origin extent = .ok (some value) → coordinate = coordinate'

/-! ## Conversions -/

theorem tryU32_eq_some {value : Int} (h : 0 ≤ value) (h' : value < 2 ^ 32) :
    ∃ n, tryU32 value = some n ∧ (n.toNat : Int) = value := by
  refine ⟨.ofNat value.toNat, by rw [tryU32, tryUnsigned_eq_some h h', Option.map_some], ?_⟩
  have hsize : value.toNat < UInt32.size := by
    rw [UInt32.size]
    omega
  rw [UInt32.toNat_ofNat_of_lt' hsize, Int.toNat_of_nonneg h]

theorem tryI32_eq_some {value : Int} (h : -2 ^ 31 ≤ value) (h' : value < 2 ^ 31) :
    ∃ n, tryI32 value = some n ∧ n.toInt = value := by
  refine ⟨.ofInt value, by rw [tryI32, trySigned_eq_some ⟨h, h'⟩, Option.map_some], ?_⟩
  exact Int32.toInt_ofInt_of_le h h'

/-! ## Scaling -/

/-- A scaled coordinate stays below the scaled extent. -/
theorem scaled_lt {x a b : Nat} (hx : x < a) (hb : 0 < b) : x * b / a < b := by
  rw [Nat.div_lt_iff_lt_mul (by omega), Nat.mul_comm b a]
  exact Nat.mul_lt_mul_of_pos_right hx hb

/-- The product of two words fits twice their bits. -/
theorem mul_lt_usizeSize (a b : UInt32) : a.toNat * b.toNat < usizeSize := by
  calc a.toNat * b.toNat ≤ a.toNat * 2 ^ 32 := Nat.mul_le_mul_left _ b.toNat_lt.le
    _ < 2 ^ 32 * 2 ^ 32 := Nat.mul_lt_mul_of_pos_right a.toNat_lt (by decide)
    _ = usizeSize := by simp [usizeSize]

/-- What one coordinate of a capture is mapped to. -/
theorem mapCoordinate_eq_some {origin : Int32} {extent captureExtent coordinate : UInt32}
    (hcoordinate : coordinate < captureExtent) (hextent : 0 < extent.toNat)
    (hfits : origin.toInt + extent.toNat ≤ 2 ^ 31) :
    ∃ screen, mapCoordinate origin extent captureExtent coordinate = some screen ∧
      screen.toInt = origin.toInt +
        (coordinate.toNat * extent.toNat / captureExtent.toNat : Nat) := by
  have hlt : coordinate.toNat * extent.toNat / captureExtent.toNat < extent.toNat :=
    scaled_lt (UInt32.lt_iff_toNat_lt.mp hcoordinate) hextent
  rw [mapCoordinate, checkedMul_eq_some (mul_lt_usizeSize _ _), Option.bind_eq_bind,
    Option.bind_some]
  -- From here on the scaled coordinate is a number below the extent.
  generalize coordinate.toNat * extent.toNat / captureExtent.toNat = scaled at hlt ⊢
  have hlow := origin.le_toInt
  have hword := extent.toNat_lt
  have hscaled : FitsSigned 64 (scaled : Int) := by
    constructor <;> omega
  have hsum : FitsSigned 64 (origin.toInt + scaled) := by
    constructor <;> omega
  obtain ⟨screen, hscreen, htoInt⟩ :=
    tryI32_eq_some (show -2 ^ 31 ≤ origin.toInt + (scaled : Int) by omega) (by omega)
  refine ⟨screen, ?_, htoInt⟩
  rw [trySigned_eq_some hscaled, Option.bind_eq_bind, Option.bind_some,
    trySigned_eq_some hsum, Option.bind_some, hscreen]

/-! ## The rectangle -/

/-- The size of a rectangle fits 64 bits. -/
theorem fitsSigned_sub (a b : Int32) : FitsSigned 64 (a.toInt - b.toInt) := by
  have hlow := a.le_toInt
  have hhigh := a.toInt_lt
  have hlow' := b.le_toInt
  have hhigh' := b.toInt_lt
  constructor <;> omega

/-- And so does what it differs from a size of the capture by. -/
theorem fitsSigned_delta (a b : Int32) (size : UInt32) :
    FitsSigned 64 (a.toInt - b.toInt - size.toNat) ∧
      FitsSigned 64 |a.toInt - b.toInt - size.toNat| := by
  have hlow := a.le_toInt
  have hhigh := a.toInt_lt
  have hlow' := b.le_toInt
  have hhigh' := b.toInt_lt
  have hsize := size.toNat_lt
  refine ⟨by constructor <;> omega, ?_⟩
  rcases abs_choice (a.toInt - b.toInt - size.toNat) with habs | habs <;> rw [habs] <;>
    constructor <;> omega

/-- No step of `capture_bounds_from_rect` overflows. -/
theorem captureBoundsFromRect_eq_ok (rectangle : Rect) (captureSize : UInt32 × UInt32) :
    ∃ bounds, captureBoundsFromRect rectangle captureSize = .ok bounds := by
  rw [captureBoundsFromRect, signed_eq_ok (fitsSigned_sub _ _), ok_bind,
    signed_eq_ok (fitsSigned_sub _ _), ok_bind]
  split
  · exact ⟨none, rfl⟩
  · rw [signed_eq_ok (fitsSigned_delta _ _ _).1, ok_bind,
      signed_eq_ok (fitsSigned_delta _ _ _).2, ok_bind,
      signed_eq_ok (fitsSigned_delta _ _ _).1, ok_bind,
      signed_eq_ok (fitsSigned_delta _ _ _).2, ok_bind]
    split
    · exact ⟨none, rfl⟩
    · exact ⟨_, rfl⟩

/-- The bounds are those of the rectangle. -/
structure BoundsOf (rectangle : Rect) (bounds : CaptureBounds) : Prop where
  left : bounds.left = rectangle.left
  top : bounds.top = rectangle.top
  width : rectangle.left.toInt + bounds.width.toNat = rectangle.right.toInt
  height : rectangle.top.toInt + bounds.height.toNat = rectangle.bottom.toInt
  width_pos : 0 < bounds.width.toNat
  height_pos : 0 < bounds.height.toNat

/-- Bounds that are found are those of the rectangle, and the capture is not empty. -/
theorem boundsOf_captureBoundsFromRect {rectangle : Rect} {captureSize : UInt32 × UInt32}
    {bounds : CaptureBounds}
    (h : captureBoundsFromRect rectangle captureSize = .ok (some bounds)) :
    BoundsOf rectangle bounds ∧ captureSize.1 ≠ 0 ∧ captureSize.2 ≠ 0 := by
  rw [captureBoundsFromRect, signed_eq_ok (fitsSigned_sub _ _), ok_bind,
    signed_eq_ok (fitsSigned_sub _ _), ok_bind] at h
  -- An empty rectangle has no bounds.
  split at h
  · cases h
  rename_i hpositive
  simp only [not_or, Int.not_le] at hpositive
  obtain ⟨hwidth, hheight, hfirst, hsecond⟩ := hpositive
  -- The differences fit 64 bits.
  rw [signed_eq_ok (fitsSigned_delta _ _ _).1, ok_bind, signed_eq_ok (fitsSigned_delta _ _ _).2,
    ok_bind, signed_eq_ok (fitsSigned_delta _ _ _).1, ok_bind,
    signed_eq_ok (fitsSigned_delta _ _ _).2, ok_bind] at h
  split at h
  · cases h
  -- Both extents are positive and below 2 ^ 32, so they are taken as they are.
  obtain ⟨width, hwidth32, hwidthEq⟩ : ∃ n, tryU32 (rectangle.right.toInt - rectangle.left.toInt) =
      some n ∧ (n.toNat : Int) = rectangle.right.toInt - rectangle.left.toInt :=
    tryU32_eq_some hwidth.le (by
      have hhigh := rectangle.right.toInt_lt
      have hlow := rectangle.left.le_toInt
      omega)
  obtain ⟨height, hheight32, hheightEq⟩ : ∃ n, tryU32 (rectangle.bottom.toInt -
      rectangle.top.toInt) = some n ∧ (n.toNat : Int) = rectangle.bottom.toInt -
        rectangle.top.toInt :=
    tryU32_eq_some hheight.le (by
      have hhigh := rectangle.bottom.toInt_lt
      have hlow := rectangle.top.le_toInt
      omega)
  rw [hwidth32, hheight32] at h
  cases h
  -- The far corner is the near one and the extent.
  refine ⟨⟨rfl, rfl, ?_, ?_, ?_, ?_⟩, hfirst, hsecond⟩
  · show rectangle.left.toInt + width.toNat = _
    omega
  · show rectangle.top.toInt + height.toNat = _
    omega
  · show 0 < width.toNat
    omega
  · show 0 < height.toNat
    omega

/-! ## Points -/

section Points

variable {rectangle : Rect} {captureSize : UInt32 × UInt32} {bounds : CaptureBounds}

/-- The scaled coordinate of a point. -/
def scaled (coordinate extent captureExtent : UInt32) : Nat :=
  coordinate.toNat * extent.toNat / captureExtent.toNat

theorem scaled_mono {coordinate coordinate' : UInt32} (h : coordinate ≤ coordinate')
    (extent captureExtent : UInt32) :
    scaled coordinate extent captureExtent ≤ scaled coordinate' extent captureExtent :=
  Nat.div_le_div_right (Nat.mul_le_mul_right _ (UInt32.le_iff_toNat_le.mp h))

theorem scaled_self {coordinate extent : UInt32} (h : coordinate < extent) :
    scaled coordinate extent extent = coordinate.toNat :=
  Nat.mul_div_cancel _ (Nat.zero_lt_of_lt (UInt32.lt_iff_toNat_lt.mp h))

/-- A point of the capture is mapped, to the sum of the corner and the scaled point. -/
theorem BoundsOf.map (h : BoundsOf rectangle bounds) {x y : UInt32} (hx : x < captureSize.1)
    (hy : y < captureSize.2) :
    ∃ screenX screenY, mapCapturePoint bounds captureSize x y = some (screenX, screenY) ∧
      screenX.toInt = rectangle.left.toInt + scaled x bounds.width captureSize.1 ∧
      screenY.toInt = rectangle.top.toInt + scaled y bounds.height captureSize.2 := by
  have hright := rectangle.right.toInt_lt
  have hbottom := rectangle.bottom.toInt_lt
  have hwidth := h.width
  have hheight := h.height
  obtain ⟨screenX, hscreenX, heqX⟩ := mapCoordinate_eq_some hx h.width_pos
    (show rectangle.left.toInt + _ ≤ 2 ^ 31 by omega)
  obtain ⟨screenY, hscreenY, heqY⟩ := mapCoordinate_eq_some hy h.height_pos
    (show rectangle.top.toInt + _ ≤ 2 ^ 31 by omega)
  refine ⟨screenX, screenY, ?_, heqX, heqY⟩
  have hne : ¬ (captureSize.1 = 0 ∨ captureSize.2 = 0 ∨ captureSize.1 ≤ x ∨ captureSize.2 ≤ y) := by
    rintro (hzero | hzero | hle | hle)
    · exact UInt32.not_lt_zero (hzero ▸ hx)
    · exact UInt32.not_lt_zero (hzero ▸ hy)
    · exact UInt32.not_le.mpr hx hle
    · exact UInt32.not_le.mpr hy hle
  rw [mapCapturePoint, if_neg hne, h.left, h.top, hscreenX, hscreenY]
  rfl

/-- Only points of the capture are mapped. -/
theorem lt_of_mapCapturePoint {x y : UInt32} {p : Int32 × Int32}
    (h : mapCapturePoint bounds captureSize x y = some p) :
    x < captureSize.1 ∧ y < captureSize.2 := by
  unfold mapCapturePoint at h
  split at h
  · cases h
  · rename_i hinside
    simp only [not_or, UInt32.not_le] at hinside
    exact hinside.2.2

theorem BoundsOf.eq_of_map (h : BoundsOf rectangle bounds) {x y : UInt32} {p : Int32 × Int32}
    (hp : mapCapturePoint bounds captureSize x y = some p) :
    p.1.toInt = rectangle.left.toInt + scaled x bounds.width captureSize.1 ∧
      p.2.toInt = rectangle.top.toInt + scaled y bounds.height captureSize.2 := by
  obtain ⟨hx, hy⟩ := lt_of_mapCapturePoint hp
  obtain ⟨screenX, screenY, hmap, hscreen⟩ := h.map hx hy
  obtain rfl : (screenX, screenY) = p := Option.some.inj (hmap.symm.trans hp)
  exact hscreen

/-- The bounds of a rectangle map every point of a capture into it. -/
theorem BoundsOf.mapsInto (h : BoundsOf rectangle bounds) :
    MapsInto rectangle captureSize bounds where
  -- A scaled coordinate lies below the extent.
  inside x y hx hy := by
    obtain ⟨screenX, screenY, hmap, heqX, heqY⟩ := h.map hx hy
    have hltX : scaled x bounds.width captureSize.1 < bounds.width.toNat :=
      scaled_lt (UInt32.lt_iff_toNat_lt.mp hx) h.width_pos
    have hltY : scaled y bounds.height captureSize.2 < bounds.height.toNat :=
      scaled_lt (UInt32.lt_iff_toNat_lt.mp hy) h.height_pos
    have hwidth := h.width
    have hheight := h.height
    refine ⟨screenX, screenY, hmap, ?_⟩
    simp only [Int32.le_iff_toInt_le, Int32.lt_iff_toInt_lt]
    omega
  -- Scaling does not reverse the order of two coordinates.
  monotone x x' y y' p p' hp hp' := by
    obtain ⟨heqX, heqY⟩ := h.eq_of_map hp
    obtain ⟨heqX', heqY'⟩ := h.eq_of_map hp'
    refine ⟨fun hle => ?_, fun hle => ?_⟩
    · have hmono := scaled_mono hle bounds.width captureSize.1
      rw [Int32.le_iff_toInt_le]
      omega
    · have hmono := scaled_mono hle bounds.height captureSize.2
      rw [Int32.le_iff_toInt_le]
      omega
  -- With the extents equal, scaling is the identity.
  exact x y p hp := by
    obtain ⟨hx, hy⟩ := lt_of_mapCapturePoint hp
    obtain ⟨heqX, heqY⟩ := h.eq_of_map hp
    refine ⟨fun hwidth => ?_, fun hheight => ?_⟩
    · rw [heqX, hwidth, scaled_self hx]
    · rw [heqY, hheight, scaled_self hy]

end Points

/-! ## The axes -/

section Axes

variable {origin extent : Int32}

/-- The normalized coordinate at a distance from the origin. -/
def normalized (extent : Int32) (relative : Int) : Int :=
  (relative * 65535 + (extent.toInt - 1) / 2) / (extent.toInt - 1)

theorem normalized_bounds (hextent : 1 < extent.toInt) {relative : Int} (hlow : 0 ≤ relative)
    (hhigh : relative < extent.toInt) :
    0 ≤ normalized extent relative ∧ normalized extent relative ≤ 65535 := by
  have hsteps : 0 < extent.toInt - 1 := by omega
  constructor
  · exact Int.ediv_nonneg (by omega) hsteps.le
  · refine Int.lt_add_one_iff.mp (Int.ediv_lt_of_lt_mul hsteps ?_)
    omega

theorem normalized_mono (hextent : 1 < extent.toInt) {relative relative' : Int}
    (h : relative ≤ relative') : normalized extent relative ≤ normalized extent relative' :=
  Int.ediv_le_ediv (by omega) (by omega)

/-- Where there are not more coordinates than values, the next coordinate has a greater value. -/
theorem normalized_lt (hextent : 1 < extent.toInt) (hfits : extent.toInt ≤ 65536)
    {relative relative' : Int} (h : relative < relative') :
    normalized extent relative < normalized extent relative' := by
  have hsteps : 0 < extent.toInt - 1 := by omega
  calc normalized extent relative < normalized extent relative + 1 := Int.lt_succ _
    _ = (relative * 65535 + (extent.toInt - 1) / 2 + (extent.toInt - 1)) / (extent.toInt - 1) := by
      rw [normalized, Int.add_ediv_of_dvd_right (dvd_refl _), Int.ediv_self hsteps.ne']
    _ ≤ normalized extent relative' := Int.ediv_le_ediv hsteps (by omega)

/-- A coordinate of the axis is normalized, and no step overflows. -/
theorem normalizeAbsoluteAxis_eq_some (hextent : 1 < extent) {coordinate : Int32}
    (hlow : origin.toInt ≤ coordinate.toInt)
    (hhigh : coordinate.toInt < origin.toInt + extent.toInt) :
    ∃ value, normalizeAbsoluteAxis coordinate origin extent = .ok (some value) ∧
      value.toInt = normalized extent (coordinate.toInt - origin.toInt) := by
  have hone : 1 < extent.toInt := Int32.lt_iff_toInt_lt.mp hextent
  have hmax := extent.toInt_lt
  obtain ⟨hnonneg, hle⟩ := normalized_bounds hone
    (show 0 ≤ coordinate.toInt - origin.toInt by omega) (by omega)
  obtain ⟨value, hvalue, htoInt⟩ := tryI32_eq_some (by omega)
    (show normalized extent (coordinate.toInt - origin.toInt) < 2 ^ 31 by omega)
  refine ⟨value, ?_, htoInt⟩
  have hsteps : FitsSigned 32 (extent.toInt - 1) := by constructor <;> omega
  have hproduct : FitsSigned 64 ((coordinate.toInt - origin.toInt) * 65535) := by
    constructor <;> omega
  have hsum : FitsSigned 64 ((coordinate.toInt - origin.toInt) * 65535 +
      (extent.toInt - 1) / 2) := by
    constructor <;> omega
  rw [normalizeAbsoluteAxis, if_neg (Int32.not_le.mpr hextent),
    signed_eq_ok (fitsSigned_sub _ _), ok_bind, if_neg (by omega), signed_eq_ok hsteps, ok_bind,
    signed_eq_ok hproduct, ok_bind, signed_eq_ok hsum, ok_bind]
  show Except.ok (tryI32 (normalized extent (coordinate.toInt - origin.toInt))) = _
  rw [hvalue]

/-- Only coordinates of the axis are. -/
theorem bounds_of_normalizeAbsoluteAxis {coordinate value : Int32}
    (h : normalizeAbsoluteAxis coordinate origin extent = .ok (some value)) :
    origin.toInt ≤ coordinate.toInt ∧ coordinate.toInt < origin.toInt + extent.toInt := by
  unfold normalizeAbsoluteAxis at h
  split at h
  · cases h
  rw [signed_eq_ok (fitsSigned_sub _ _), ok_bind] at h
  split at h
  · cases h
  · omega

theorem eq_of_normalizeAbsoluteAxis (hextent : 1 < extent) {coordinate value : Int32}
    (h : normalizeAbsoluteAxis coordinate origin extent = .ok (some value)) :
    value.toInt = normalized extent (coordinate.toInt - origin.toInt) := by
  obtain ⟨hlow, hhigh⟩ := bounds_of_normalizeAbsoluteAxis h
  obtain ⟨value', hvalue', heq⟩ := normalizeAbsoluteAxis_eq_some hextent hlow hhigh
  rw [hvalue'] at h
  cases h
  exact heq

/-- An axis of at least two points is normalised to the whole range. -/
theorem normalizesAxis (hextent : 1 < extent) : NormalizesAxis origin extent := by
  have hone : 1 < extent.toInt := Int32.lt_iff_toInt_lt.mp hextent
  have hsteps : 0 < extent.toInt - 1 := by omega
  refine ⟨fun coordinate hlow hhigh => ?_, fun coordinate coordinate' value value' hvalue hvalue'
    hle => ?_, ?_, fun coordinate hlast => ?_, fun hfits coordinate coordinate' value hvalue
    hvalue' => ?_⟩
  -- Every point of the axis has a value between 0 and 65535.
  · obtain ⟨value, hvalue, heq⟩ := normalizeAbsoluteAxis_eq_some hextent hlow hhigh
    exact ⟨value, hvalue, heq ▸ normalized_bounds hone (by omega) (by omega)⟩
  -- The value does not fall from one point to the next.
  · rw [Int32.le_iff_toInt_le, eq_of_normalizeAbsoluteAxis hextent hvalue,
      eq_of_normalizeAbsoluteAxis hextent hvalue']
    have hle := Int32.le_iff_toInt_le.mp hle
    exact normalized_mono hone (by omega)
  -- The first point has the value 0.
  · obtain ⟨value, hvalue, heq⟩ := normalizeAbsoluteAxis_eq_some hextent
      (le_refl origin.toInt) (by omega)
    have hzero : normalized extent (origin.toInt - origin.toInt) = 0 := by
      rw [normalized, Int.sub_self, Int.zero_mul, Int.zero_add]
      exact Int.ediv_eq_zero_of_lt (by omega) (by omega)
    rw [hvalue, Int32.toInt_inj.mp ((heq.trans hzero).trans Int32.toInt_zero.symm)]
  -- The last one has 65535.
  · obtain ⟨value, hvalue, heq⟩ := normalizeAbsoluteAxis_eq_some hextent
      (show origin.toInt ≤ coordinate.toInt by omega) (by omega)
    have hwhole : normalized extent (coordinate.toInt - origin.toInt) = 65535 := by
      have hrelative : coordinate.toInt - origin.toInt = extent.toInt - 1 := by omega
      rw [normalized, hrelative, Int.mul_comm, Int.mul_comm 65535, Int.add_comm,
        Int.add_mul_ediv_left _ _ hsteps.ne', Int.ediv_eq_zero_of_lt (by omega) (by omega)]
      rfl
    rw [hvalue, Int32.toInt_inj.mp ((heq.trans hwhole).trans (by rfl : (65535 : Int) =
      (65535 : Int32).toInt))]
  -- Where there are no more points than values, no two points share one.
  · have heq := eq_of_normalizeAbsoluteAxis hextent hvalue
    have heq' := eq_of_normalizeAbsoluteAxis hextent hvalue'
    refine Int32.toInt_inj.mp ?_
    rcases Int.lt_trichotomy coordinate.toInt coordinate'.toInt with hlt | hsame | hlt
    · have hless := normalized_lt hone hfits (show coordinate.toInt - origin.toInt <
        coordinate'.toInt - origin.toInt by omega)
      omega
    · exact hsame
    · have hless := normalized_lt hone hfits (show coordinate'.toInt - origin.toInt <
        coordinate.toInt - origin.toInt by omega)
      omega

end Axes

/-- A point of a capture is mapped into the rectangle of its window, and each coordinate of it is
    normalized within the axis of the screen; no step overflows. -/
theorem captured_points_map_onto_screen {rectangle : Rect} {captureSize : UInt32 × UInt32}
    {bounds : CaptureBounds} {origin extent : Int32}
    (hbounds : captureBoundsFromRect rectangle captureSize = .ok (some bounds))
    (hextent : 1 < extent) :
    MapsInto rectangle captureSize bounds ∧ NormalizesAxis origin extent :=
  ⟨(boundsOf_captureBoundsFromRect hbounds).1.mapsInto, normalizesAxis hextent⟩

/-- A capture that is four pixels smaller than its window, on a screen of 1920 pixels. -/
theorem small_capture_maps_onto_screen :
    MapsInto ⟨-100, 50, 924, 818⟩ (1020, 764) ⟨-100, 50, 1024, 768⟩ ∧ NormalizesAxis 0 1920 :=
  captured_points_map_onto_screen (by rfl) (by decide)

end Lsw.Agent
