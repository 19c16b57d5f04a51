import Lsw.Presenter.FrameState

/-!
# Damage Tracking in the Guest

`DamageTracker` (`gui_damage.rs`) turns successive captured frames into damage messages:
it cuts a frame into tiles of `TILE_SIDE` pixels, compares each with the frame before and
reports the tiles that differ, all of them after a size change.

`update_eq` gives the result in closed form: on a frame of valid size `update` returns,
remembers the frame, and reports exactly the tiles whose bytes changed.
-/

namespace Lsw.Agent

open Lsw.Lib
open Lsw.Protocol
open Lsw.Presenter (bgraPixel)

/-! ## Tracker -/

/-- `TILE_SIDE`. -/
def tileSide : Nat := 128

/-- `DamageTracker`; the defaults are those of `DamageTracker::default()`. -/
structure DamageTracker where
  width : Nat := 0
  height : Nat := 0
  previous : Bytes := []
  sequence : UInt64 := 0
  deriving DecidableEq

/-- `validate_frame`. -/
def validateFrame (width height : UInt32) (bgra : Bytes) :
    Exec ProtocolError (Nat × Nat × Nat) := do
  rejectIf (width = 0 ∨ height = 0 ∨ width.toNat > maxGuiWindowDimension ∨
      height.toNat > maxGuiWindowDimension)
    (.error (.protocol
      s!"captured GUI dimensions must be between 1 and {maxGuiWindowDimension}"))
  let frameBytes ← okOr (bgraByteLength width.toNat height.toNat)
    (.error (.protocol "captured GUI frame length overflowed"))
  rejectIf (frameBytes > maxGuiFrameBytes)
    (.error (.protocol s!"captured GUI frame exceeds the {maxGuiFrameBytes} byte limit"))
  let received := bgra.length
  rejectIf (received ≠ frameBytes)
    (.error (.protocol s!"captured GUI frame contains {received} bytes; expected {frameBytes}"))
  return (width.toNat, height.toNat, frameBytes)

/-- `(0..length).step_by(TILE_SIDE)`. -/
def tileStarts (length : Nat) : List Nat :=
  (List.range ((length + tileSide - 1) / tileSide)).map (· * tileSide)

/-- The bytes of one row of a tile: `buffer[start..start + width * 4]`. -/
def tileRow (buffer : Bytes) (frameWidth x width row : Nat) : Exec ProtocolError Bytes := do
  let start ← mulUsize (← addUsize (← mulUsize row frameWidth) x) 4
  slice buffer start (← addUsize start (← mulUsize width 4))

/-- `tile_matches`: the rows are compared until one differs. -/
def tileMatches (previous current : Bytes) (frameWidth x y width : Nat) :
    Nat → Exec ProtocolError Bool
  | 0 => return true
  | height + 1 => do
    let before ← tileRow previous frameWidth x width y
    let after ← tileRow current frameWidth x width y
    if before = after then tileMatches previous current frameWidth x (y + 1) width height
    else return false

/-- `u32::try_from(value).expect(..)`. -/
def expectU32 (value : Nat) : Exec ProtocolError UInt32 :=
  if value < u32Size then .ok (UInt32.ofNat value) else .error .panic

/-- `!resized && tile_matches(..)`. -/
def tileUnchanged (resized : Bool) (previous bgra : Bytes) (frameWidth x y width height : Nat) :
    Exec ProtocolError Bool :=
  if resized then return false
  else tileMatches previous bgra frameWidth x y width height

/-- One iteration of the inner loop of `update`: the tile at `(x, y)`. -/
def updateTile (resized : Bool) (previous bgra : Bytes) (width height : Nat)
    (sequence : UInt64) (y : Nat) (damages : List GuiWindowDamage) (x : Nat) :
    Exec ProtocolError (List GuiWindowDamage) := do
  let tileHeight := min tileSide (height - y)
  let tileWidth := min tileSide (width - x)
  let unchanged ← tileUnchanged resized previous bgra width x y tileWidth tileHeight
  if unchanged then return damages
  else
    let tile ← forRange tileHeight (fun tile row => do
      return tile ++ (← tileRow bgra width x tileWidth (y + row))) []
    return damages ++ [{
      sequence := sequence
      x := ← expectU32 x
      y := ← expectU32 y
      width := ← expectU32 tileWidth
      height := ← expectU32 tileHeight
      bgra := tile }]

/-- `self.sequence.checked_add(1).unwrap_or(1)`. -/
def nextSequence (sequence : UInt64) : UInt64 :=
  if sequence.toNat + 1 < usizeSize then sequence + 1 else 1

/-- `if resized || !damages.is_empty() { self.previous.copy_from_slice(bgra) }`. -/
def rememberFrame (resized : Bool) (damages : List GuiWindowDamage) (previous bgra : Bytes) :
    Exec ProtocolError Bytes :=
  if resized ∨ ¬ damages.isEmpty then copyFromSlice previous bgra else return previous

/-- `DamageTracker::update`. -/
def DamageTracker.update (tracker : DamageTracker) (width height : UInt32) (bgra : Bytes) :
    Exec ProtocolError (DamageTracker × List GuiWindowDamage) := do
  let (width, height, frameBytes) ← validateFrame width height bgra
  let resized := tracker.width ≠ width ∨ tracker.height ≠ height
  let previous := if resized then List.replicate frameBytes 0 else tracker.previous
  let sequence := nextSequence tracker.sequence
  let damages ← forEach (tileStarts height) (fun damages y =>
    forEach (tileStarts width)
      (updateTile (decide resized) previous bgra width height sequence y) damages) []
  let previous ← rememberFrame (decide resized) damages previous bgra
  return ({ width, height, previous, sequence }, damages)

/-! ## Tiles -/

/-- The bytes of row `row` of the frame in columns `x` to `x + width`. -/
def rowBytes (buffer : Bytes) (frameWidth x width row : Nat) : Bytes :=
  (buffer.take ((row * frameWidth + x) * 4 + width * 4)).drop ((row * frameWidth + x) * 4)

/-- The bytes of the tile of `width × height` pixels at `(x, y)`. -/
def tileBytes (buffer : Bytes) (frameWidth x y width height : Nat) : Bytes :=
  (List.range height).flatMap fun row => rowBytes buffer frameWidth x width (y + row)

/-- A rectangle of a `W × H` frame kept in `buffer`. -/
structure TileOf (buffer : Bytes) (W H x y width height : Nat) : Prop where
  buffer_length : buffer.length = W * H * 4
  buffer_fits : buffer.length < usizeSize
  right_le : x + width ≤ W
  bottom_le : y + height ≤ H

section Tile

variable {buffer : Bytes} {W H x y width height : Nat}

/-- The row of a tile ends inside the frame. -/
theorem TileOf.row_end_le (ht : TileOf buffer W H x y width height) {row : Nat}
    (hrow : row < y + height) : (row * W + x) * 4 + width * 4 ≤ buffer.length := by
  obtain ⟨hlen, -, hright, hbottom⟩ := ht
  have hrows : (row + 1) * W ≤ W * H := by
    rw [Nat.mul_comm]
    exact Nat.mul_le_mul_left W (by omega)
  have : (row + 1) * W = row * W + W := by ring
  omega

theorem TileOf.tileRow_eq (ht : TileOf buffer W H x y width height) {row : Nat}
    (hrow : row < y + height) :
    tileRow buffer W x width row = .ok (rowBytes buffer W x width row) := by
  have hend := ht.row_end_le hrow
  have hfits := ht.buffer_fits
  unfold tileRow
  rw [mulUsize_eq_ok (by omega), ok_bind, addUsize_eq_ok (by omega), ok_bind,
    mulUsize_eq_ok (by omega), ok_bind, mulUsize_eq_ok (by omega), ok_bind,
    addUsize_eq_ok (by omega), ok_bind, slice_eq_ok (by omega) hend]
  rfl

theorem TileOf.length_rowBytes (ht : TileOf buffer W H x y width height) {row : Nat}
    (hrow : row < y + height) : (rowBytes buffer W x width row).length = width * 4 := by
  have hend := ht.row_end_le hrow
  simp only [rowBytes, List.length_drop, List.length_take]
  omega

theorem TileOf.length_tileBytes (ht : TileOf buffer W H x y width height) :
    (tileBytes buffer W x y width height).length = width * height * 4 := by
  have hrows : ∀ row ∈ List.range height,
      (rowBytes buffer W x width (y + row)).length = width * 4 := fun row hrow =>
    ht.length_rowBytes (by have := List.mem_range.mp hrow; omega)
  rw [tileBytes, List.length_flatMap, List.map_congr_left hrows]
  simp only [List.map_const', List.length_range, List.sum_replicate_nat]
  ring

/-- The bytes of a pixel of the tile are those of the frame it was cut from. -/
theorem TileOf.getElem?_tileBytes (ht : TileOf buffer W H x y width height)
    {column row k : Nat} (hcolumn : column < width) (hrow : row < height) (hk : k < 4) :
    (tileBytes buffer W x y width height)[(row * width + column) * 4 + k]? =
      buffer[((y + row) * W + (x + column)) * 4 + k]? := by
  have hpieces : ∀ i, i < height →
      (rowBytes buffer W x width (y + i)).length = width * 4 := fun i hi =>
    ht.length_rowBytes (by omega)
  have hsplit : (row * width + column) * 4 + k = row * (width * 4) + (column * 4 + k) := by ring
  have hsource : ((y + row) * W + (x + column)) * 4 + k =
      ((y + row) * W + x) * 4 + (column * 4 + k) := by ring
  rw [hsplit, tileBytes, getElem?_flatMap_range hpieces hrow (by omega), rowBytes,
    List.getElem?_drop, List.getElem?_take_of_lt (by omega), hsource]

theorem TileOf.bgraPixel_tileBytes (ht : TileOf buffer W H x y width height)
    {column row : Nat} (hcolumn : column < width) (hrow : row < height) :
    bgraPixel (tileBytes buffer W x y width height) width column row =
      bgraPixel buffer W (x + column) (y + row) := by
  have hbyte := fun k (hk : k < 4) => ht.getElem?_tileBytes hcolumn hrow hk
  simp only [bgraPixel, List.getD_eq_getElem?_getD, hbyte 1 (by omega), hbyte 2 (by omega)]
  have h0 := hbyte 0 (by omega)
  simp only [Nat.add_zero] at h0
  rw [h0]

end Tile

/-- `tile_matches` returns, and says whether the two tiles have the same bytes in every
    row. -/
theorem tileMatches_eq {previous current : Bytes} {W H x y width height : Nat}
    (hp : TileOf previous W H x y width height) (hc : TileOf current W H x y width height) :
    tileMatches previous current W x y width height = .ok (decide (∀ row < height,
      rowBytes previous W x width (y + row) = rowBytes current W x width (y + row))) := by
  induction height generalizing y with
  | zero => simp [tileMatches, pure, Except.pure]
  | succ height ih =>
    have hp' : TileOf previous W H x (y + 1) width height :=
      ⟨hp.buffer_length, hp.buffer_fits, hp.right_le, by have := hp.bottom_le; omega⟩
    have hc' : TileOf current W H x (y + 1) width height :=
      ⟨hc.buffer_length, hc.buffer_fits, hc.right_le, by have := hc.bottom_le; omega⟩
    -- The first row, then the rows below it.
    have hrows : (∀ row < height + 1,
          rowBytes previous W x width (y + row) = rowBytes current W x width (y + row)) ↔
        rowBytes previous W x width y = rowBytes current W x width y ∧
          ∀ row < height, rowBytes previous W x width (y + 1 + row) =
            rowBytes current W x width (y + 1 + row) := by
      rw [Nat.forall_lt_succ_left]
      simp only [Nat.add_zero, Nat.add_assoc, Nat.add_comm 1]
    rw [tileMatches, hp.tileRow_eq (by omega), ok_bind, hc.tileRow_eq (by omega), ok_bind]
    by_cases hfirst : rowBytes previous W x width y = rowBytes current W x width y
    · rw [if_pos hfirst, ih hp' hc']
      simp only [hrows, hfirst, true_and]
    · rw [if_neg hfirst, decide_eq_false fun hall => hfirst (hrows.mp hall).1]
      rfl

/-- Equal tiles show equal colours. -/
theorem bgraPixel_of_rows_eq {previous current : Bytes} {W H x y width height : Nat}
    (hp : TileOf previous W H x y width height) (hc : TileOf current W H x y width height)
    (hrows : ∀ row < height,
      rowBytes previous W x width (y + row) = rowBytes current W x width (y + row))
    {column row : Nat} (hcolumn : column < width) (hrow : row < height) :
    bgraPixel previous W (x + column) (y + row) = bgraPixel current W (x + column) (y + row) := by
  have htiles : tileBytes previous W x y width height = tileBytes current W x y width height :=
    List.flatMap_congr fun row hrow => hrows row (List.mem_range.mp hrow)
  rw [← hp.bgraPixel_tileBytes hcolumn hrow, ← hc.bgraPixel_tileBytes hcolumn hrow, htiles]

/-! ## The tiles of a frame -/

/-- A captured frame: a valid size and exactly the bytes of its pixels. -/
structure Frame where
  width : UInt32
  height : UInt32
  bgra : Bytes
  dimensions : ValidDimensions width.toNat height.toNat
  bgra_length : bgra.length = width.toNat * height.toNat * 4

theorem mem_tileStarts {length start : Nat} :
    start ∈ tileStarts length ↔ start < length ∧ start % tileSide = 0 := by
  simp only [tileStarts, List.mem_map, List.mem_range, tileSide]
  constructor
  · rintro ⟨i, hi, rfl⟩
    omega
  · rintro ⟨hlt, hmod⟩
    exact ⟨start / 128, by omega, by omega⟩

/-- Every position of an axis lies in one of its tiles. -/
theorem exists_tileStart {length position : Nat} (h : position < length) :
    ∃ start ∈ tileStarts length, start ≤ position ∧
      position < start + min tileSide (length - start) := by
  refine ⟨position / tileSide * tileSide, mem_tileStarts.mpr ?_, ?_⟩
  · simp only [tileSide]
    omega
  · simp only [tileSide]
    omega

section FrameTile

variable {frame : Frame} {x y : Nat}

theorem Frame.bytes_fit (frame : Frame) : frame.bgra.length < usizeSize := by
  have hbytes := frame.dimensions.bytes_le
  have hlen := frame.bgra_length
  have : maxGuiFrameBytes < usizeSize := by decide
  omega

/-- The tile at `(x, y)` of any buffer as large as the frame. -/
theorem Frame.tileOf (hx : x ∈ tileStarts frame.width.toNat)
    (hy : y ∈ tileStarts frame.height.toNat) {buffer : Bytes}
    (hlen : buffer.length = frame.bgra.length) :
    TileOf buffer frame.width.toNat frame.height.toNat x y
      (min tileSide (frame.width.toNat - x)) (min tileSide (frame.height.toNat - y)) where
  buffer_length := hlen.trans frame.bgra_length
  buffer_fits := hlen ▸ frame.bytes_fit
  right_le := by have := (mem_tileStarts.mp hx).1; omega
  bottom_le := by have := (mem_tileStarts.mp hy).1; omega

end FrameTile

/-- The damage message of the tile at `(x, y)`. -/
def Frame.tileDamage (frame : Frame) (sequence : UInt64) (x y : Nat) : GuiWindowDamage :=
  let width := min tileSide (frame.width.toNat - x)
  let height := min tileSide (frame.height.toNat - y)
  { sequence
    x := UInt32.ofNat x
    y := UInt32.ofNat y
    width := UInt32.ofNat width
    height := UInt32.ofNat height
    bgra := tileBytes frame.bgra frame.width.toNat x y width height }

/-- Whether the tile at `(x, y)` has the same bytes in `previous` and in the frame. -/
def Frame.SameTile (frame : Frame) (previous : Bytes) (x y : Nat) : Prop :=
  ∀ row < min tileSide (frame.height.toNat - y),
    rowBytes previous frame.width.toNat x (min tileSide (frame.width.toNat - x)) (y + row) =
      rowBytes frame.bgra frame.width.toNat x (min tileSide (frame.width.toNat - x)) (y + row)

instance (frame : Frame) (previous : Bytes) (x y : Nat) :
    Decidable (frame.SameTile previous x y) :=
  inferInstanceAs (Decidable (∀ _ < _, _))

/-- What `update` reports: every tile after a size change, else those that differ. -/
def Frame.damages (frame : Frame) (resized : Bool) (previous : Bytes) (sequence : UInt64) :
    List GuiWindowDamage :=
  (tileStarts frame.height.toNat).flatMap fun y =>
    (tileStarts frame.width.toNat).flatMap fun x =>
      if resized = false ∧ frame.SameTile previous x y then []
      else [frame.tileDamage sequence x y]

/-! ## The update in closed form -/

theorem expectU32_eq {value : Nat} (h : value < u32Size) :
    expectU32 value = .ok (UInt32.ofNat value) := if_pos h

/-- The row loop of `update` collects the bytes of the tile. -/
theorem TileOf.tileRows_eq {buffer : Bytes} {W H x y width height : Nat}
    (ht : TileOf buffer W H x y width height) :
    forRange height (fun tile row => do
      return tile ++ (← tileRow buffer W x width (y + row))) [] =
      .ok (tileBytes buffer W x y width height) := by
  refine forEach_append (fun row hrow acc => ?_) []
  rw [ht.tileRow_eq (by have := List.mem_range.mp hrow; omega)]
  rfl

/-- A tile is sent unless the frame keeps its size and the tile its pixels. -/
theorem updateTile_eq {frame : Frame} {resized : Bool} {previous : Bytes} {sequence : UInt64}
    {x y : Nat} (hx : x ∈ tileStarts frame.width.toNat) (hy : y ∈ tileStarts frame.height.toNat)
    (hprevious : previous.length = frame.bgra.length) (acc : List GuiWindowDamage) :
    updateTile resized previous frame.bgra frame.width.toNat frame.height.toNat sequence y acc x =
      .ok (acc ++ if resized = false ∧ frame.SameTile previous x y then []
        else [frame.tileDamage sequence x y]) := by
  have hp := Frame.tileOf hx hy hprevious
  have hc := Frame.tileOf hx hy (rfl : frame.bgra.length = frame.bgra.length)
  have hwidth := frame.width.toNat_lt
  have hheight := frame.height.toNat_lt
  have hxlt := (mem_tileStarts.mp hx).1
  have hylt := (mem_tileStarts.mp hy).1
  have hu32 : u32Size = 2 ^ 32 := rfl
  -- The comparison is made only when the size is unchanged.
  have hsame : tileUnchanged resized previous frame.bgra frame.width.toNat x y
        (min tileSide (frame.width.toNat - x)) (min tileSide (frame.height.toNat - y)) =
      .ok (decide (resized = false ∧ frame.SameTile previous x y)) := by
    cases resized with
    | true => simp [tileUnchanged, pure, Except.pure]
    | false => simp [tileUnchanged, tileMatches_eq hp hc, Frame.SameTile]
  unfold updateTile
  dsimp only
  rw [hsame, ok_bind]
  by_cases hskip : resized = false ∧ frame.SameTile previous x y
  · simp [hskip, pure, Except.pure]
  · rw [if_neg (by simpa using hskip), if_neg hskip, hc.tileRows_eq, ok_bind,
      expectU32_eq (by omega), ok_bind, expectU32_eq (by omega), ok_bind,
      expectU32_eq (by omega), ok_bind, expectU32_eq (by omega), ok_bind]
    rfl

theorem validateFrame_eq (frame : Frame) :
    validateFrame frame.width frame.height frame.bgra =
      .ok (frame.width.toNat, frame.height.toNat, frame.bgra.length) := by
  obtain ⟨hw, hh, hwle, hhle, hbytes⟩ := frame.dimensions
  have hw0 := (uint32_ne_zero_iff _).mpr hw
  have hh0 := (uint32_ne_zero_iff _).mpr hh
  unfold validateFrame
  rw [rejectIf_of_not _ (by simp [hw0, hh0]; omega), ok_bind, frame.dimensions.byteLength,
    okOr_some, ok_bind, rejectIf_of_not _ (by omega), ok_bind]
  dsimp only
  rw [rejectIf_of_not _ (by simp [frame.bgra_length]), ok_bind, frame.bgra_length]
  rfl

/-- The tiles of a frame determine it: a buffer whose tiles are all the same is the frame. -/
theorem Frame.eq_of_sameTile {frame : Frame} {previous : Bytes}
    (hprevious : previous.length = frame.bgra.length)
    (hsame : ∀ x ∈ tileStarts frame.width.toNat, ∀ y ∈ tileStarts frame.height.toNat,
      frame.SameTile previous x y) : previous = frame.bgra := by
  apply List.ext_getElem?
  intro i
  by_cases hi : i < frame.bgra.length
  · -- Byte `i` is byte `i % 4` of the pixel in column `X` of row `Y`.
    have hlen := frame.bgra_length
    have hwpos := frame.dimensions.width_pos
    have hX : i / 4 % frame.width.toNat < frame.width.toNat := Nat.mod_lt _ hwpos
    have hY : i / 4 / frame.width.toNat < frame.height.toNat :=
      Nat.div_lt_of_lt_mul (by omega)
    obtain ⟨x, hx, hxle, hxlt⟩ := exists_tileStart hX
    obtain ⟨y, hy, hyle, hylt⟩ := exists_tileStart hY
    have hp := Frame.tileOf hx hy hprevious
    have hc := Frame.tileOf hx hy (rfl : frame.bgra.length = frame.bgra.length)
    have htiles : tileBytes previous frame.width.toNat x y _ _ =
        tileBytes frame.bgra frame.width.toNat x y _ _ :=
      List.flatMap_congr fun row hrow => hsame x hx y hy row (List.mem_range.mp hrow)
    have hsplit : ((y + (i / 4 / frame.width.toNat - y)) * frame.width.toNat +
        (x + (i / 4 % frame.width.toNat - x))) * 4 + i % 4 = i := by
      rw [Nat.add_sub_cancel' hyle, Nat.add_sub_cancel' hxle, Nat.mul_comm (_ / _),
        Nat.div_add_mod]
      omega
    have hbyte := hp.getElem?_tileBytes
      (by omega : i / 4 % frame.width.toNat - x < min tileSide (frame.width.toNat - x))
      (by omega : i / 4 / frame.width.toNat - y < min tileSide (frame.height.toNat - y))
      (Nat.mod_lt i (by omega : 0 < 4))
    rw [htiles, hc.getElem?_tileBytes (by omega) (by omega) (Nat.mod_lt i (by omega)),
      hsplit] at hbyte
    exact hbyte.symm
  · rw [List.getElem?_eq_none (by omega), List.getElem?_eq_none (by omega)]

/-- No damage means that no tile differs. -/
theorem Frame.sameTile_of_damages_eq_nil {frame : Frame} {previous : Bytes} {sequence : UInt64}
    (h : frame.damages false previous sequence = []) {x y : Nat}
    (hx : x ∈ tileStarts frame.width.toNat) (hy : y ∈ tileStarts frame.height.toNat) :
    frame.SameTile previous x y := by
  simp only [Frame.damages, List.flatMap_eq_nil_iff] at h
  by_contra hdiff
  simpa [hdiff] using h y hy x hx

/-- The tracker holds a frame of its own size. -/
def DamageTracker.Sized (tracker : DamageTracker) : Prop :=
  tracker.previous.length = tracker.width * tracker.height * 4

/-- Whether a frame has another size than the one the tracker holds. -/
def DamageTracker.resized (tracker : DamageTracker) (frame : Frame) : Bool :=
  decide (tracker.width ≠ frame.width.toNat ∨ tracker.height ≠ frame.height.toNat)

/-- The tracker after it has seen a frame. -/
def DamageTracker.seen (tracker : DamageTracker) (frame : Frame) : DamageTracker where
  width := frame.width.toNat
  height := frame.height.toNat
  previous := frame.bgra
  sequence := nextSequence tracker.sequence

/-- The tile loops of `update`. -/
theorem updateTiles_eq {frame : Frame} {previous : Bytes} (resized : Bool) (sequence : UInt64)
    (hprevious : previous.length = frame.bgra.length) :
    forEach (tileStarts frame.height.toNat) (fun damages y =>
      forEach (tileStarts frame.width.toNat) (updateTile resized previous frame.bgra
        frame.width.toNat frame.height.toNat sequence y) damages) [] =
      .ok (frame.damages resized previous sequence) :=
  forEach_append (fun _ hy acc =>
    forEach_append (fun _ hx acc => updateTile_eq hx hy hprevious acc) acc) []

/-- The tracker ends with the frame it was given: it is copied, or every tile was the
    same. -/
theorem rememberFrame_eq {frame : Frame} {previous : Bytes} (resized : Bool)
    (sequence : UInt64) (hprevious : previous.length = frame.bgra.length) :
    rememberFrame resized (frame.damages resized previous sequence) previous frame.bgra =
      .ok frame.bgra := by
  unfold rememberFrame
  split
  · exact copyFromSlice_eq_ok hprevious
  · rename_i hkeep
    simp only [not_or, Bool.not_eq_true, not_not, List.isEmpty_iff] at hkeep
    obtain ⟨rfl, hnil⟩ := hkeep
    rw [Frame.eq_of_sameTile hprevious fun x hx y hy =>
      Frame.sameTile_of_damages_eq_nil hnil hx hy]
    rfl

/-- `update` accepts every frame of valid size, remembers it and reports exactly the tiles
    that differ from the frame before, or all of them after a size change. -/
theorem update_eq {tracker : DamageTracker} (hsized : tracker.Sized) (frame : Frame) :
    tracker.update frame.width frame.height frame.bgra = .ok (tracker.seen frame,
      frame.damages (tracker.resized frame) tracker.previous (nextSequence tracker.sequence)) := by
  unfold DamageTracker.update
  rw [validateFrame_eq, ok_bind]
  dsimp only
  by_cases hresized : tracker.width ≠ frame.width.toNat ∨ tracker.height ≠ frame.height.toNat
  · have hflag : tracker.resized frame = true := by simpa [DamageTracker.resized] using hresized
    rw [if_pos hresized, decide_eq_true hresized, updateTiles_eq _ _ (by simp), ok_bind,
      rememberFrame_eq _ _ (by simp), ok_bind, hflag]
    -- After a size change the old bytes are not looked at.
    simp [Frame.damages, DamageTracker.seen, pure, Except.pure]
  · have hflag : tracker.resized frame = false := by
      simpa [DamageTracker.resized] using hresized
    have hprevious : tracker.previous.length = frame.bgra.length := by
      simp only [not_or, not_not] at hresized
      rw [hsized, hresized.1, hresized.2, frame.bgra_length]
    rw [if_neg hresized, decide_eq_false hresized, updateTiles_eq _ _ hprevious, ok_bind,
      rememberFrame_eq _ _ hprevious, ok_bind, hflag]
    rfl

end Lsw.Agent
