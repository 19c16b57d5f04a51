import Mathlib.Data.List.Basic
import Mathlib.Tactic.Common
import Mathlib.Tactic.Ring

/-!
# Row-Major Buffers

A `w × h` image kept as one list, row after row: the pixel in column `x` of row `y` is
element `y * w + x`.  The lemmas turn statements about elements into statements about
pixels, so that proofs about image loops never compute with flat positions.
-/

namespace Lsw.Lib

/-! ## Positions -/

theorem rowMajor_lt {w h x y : Nat} (hx : x < w) (hy : y < h) : y * w + x < w * h := by
  calc y * w + x < y * w + w := by omega
    _ = (y + 1) * w := by ring
    _ ≤ h * w := Nat.mul_le_mul_right w hy
    _ = w * h := Nat.mul_comm h w

theorem rowMajor_div {w x : Nat} (y : Nat) (hx : x < w) : (y * w + x) / w = y := by
  have hw : 0 < w := by omega
  rw [Nat.mul_comm, Nat.mul_add_div hw, Nat.div_eq_of_lt hx, Nat.add_zero]

theorem rowMajor_mod {w x : Nat} (y : Nat) (hx : x < w) : (y * w + x) % w = x := by
  rw [Nat.mul_comm, Nat.mul_add_mod, Nat.mod_eq_of_lt hx]

/-- Two pixels of one image share a position only when they are the same pixel. -/
theorem rowMajor_inj {w x y x' y' : Nat} (hx : x < w) (hx' : x' < w) :
    y * w + x = y' * w + x' ↔ x = x' ∧ y = y' := by
  constructor
  · intro h
    have hmod := congrArg (· % w) h
    have hdiv := congrArg (· / w) h
    simp only [rowMajor_mod _ hx, rowMajor_mod _ hx'] at hmod
    simp only [rowMajor_div _ hx, rowMajor_div _ hx'] at hdiv
    exact ⟨hmod, hdiv⟩
  · rintro ⟨rfl, rfl⟩
    rfl

/-- A list cut into `n` pieces of one length: element `j` of piece `i`. -/
theorem getElem?_flatMap_range {α : Type} {n len : Nat} {piece : Nat → List α}
    (hpiece : ∀ i, i < n → (piece i).length = len) {i j : Nat} (hi : i < n) (hj : j < len) :
    ((List.range n).flatMap piece)[i * len + j]? = (piece i)[j]? := by
  induction n with
  | zero => omega
  | succ n ih =>
    have hlen : ((List.range n).flatMap piece).length = n * len := by
      have hall : ∀ k ∈ List.range n, (piece k).length = len := fun k hk =>
        hpiece k (by have := List.mem_range.mp hk; omega)
      rw [List.length_flatMap, List.map_congr_left hall]
      simp
    rw [List.range_succ, List.flatMap_append, List.flatMap_singleton]
    rcases Nat.lt_succ_iff_lt_or_eq.mp hi with hlt | rfl
    · have hpos : i * len + j < n * len := by
        have := rowMajor_lt hj hlt
        rwa [Nat.mul_comm n len]
      rw [List.getElem?_append_left (by omega)]
      exact ih (fun k hk => hpiece k (by omega)) hlt
    · rw [List.getElem?_append_right (by omega), hlen, Nat.add_sub_cancel_left]

/-! ## Pixels -/

section Pixels

variable {α : Type} {w h : Nat}

/-- Writing one pixel changes that pixel and no other. -/
theorem getElem?_set_rowMajor {buffer : List α} (hlen : buffer.length = w * h)
    {x y x' y' : Nat} (hx : x < w) (hx' : x' < w) (hy' : y' < h) (v : α) :
    (buffer.set (y' * w + x') v)[y * w + x]? =
      if x = x' ∧ y = y' then some v else buffer[y * w + x]? := by
  by_cases hxy : x = x' ∧ y = y'
  · obtain ⟨rfl, rfl⟩ := hxy
    have hlt : y * w + x < buffer.length := hlen ▸ rowMajor_lt hx hy'
    simp [hlt]
  · have hne : y' * w + x' ≠ y * w + x := fun heq =>
      hxy ((rowMajor_inj hx' hx).mp heq |>.imp Eq.symm Eq.symm)
    simp [List.getElem?_set_ne hne, hxy]

/-- Two images of one size are equal when they agree at every pixel. -/
theorem raster_ext {a b : List α} (ha : a.length = w * h) (hb : b.length = w * h)
    (hpix : ∀ x y, x < w → y < h → a[y * w + x]? = b[y * w + x]?) : a = b := by
  apply List.ext_getElem?
  intro i
  by_cases hi : i < w * h
  · have hw : 0 < w := Nat.pos_of_ne_zero fun h0 => by simp [h0] at hi
    have hmod : i % w < w := Nat.mod_lt i hw
    have hdiv : i / w < h := Nat.div_lt_of_lt_mul hi
    have hsplit : i / w * w + i % w = i := by
      rw [Nat.mul_comm]
      exact Nat.div_add_mod i w
    have := hpix (i % w) (i / w) hmod hdiv
    rwa [hsplit] at this
  · rw [List.getElem?_eq_none (by omega), List.getElem?_eq_none (by omega)]

/-- The image whose pixel `(x, y)` is `f x y`. -/
def rasterOf (w h : Nat) (f : Nat → Nat → α) : List α :=
  (List.range (w * h)).map fun i => f (i % w) (i / w)

@[simp] theorem length_rasterOf (f : Nat → Nat → α) : (rasterOf w h f).length = w * h := by
  simp [rasterOf]

theorem getElem?_rasterOf (f : Nat → Nat → α) {x y : Nat} (hx : x < w) (hy : y < h) :
    (rasterOf w h f)[y * w + x]? = some (f x y) := by
  have hlt := rowMajor_lt hx hy
  simp [rasterOf, hlt, rowMajor_div _ hx, rowMajor_mod _ hx]

end Pixels

end Lsw.Lib
