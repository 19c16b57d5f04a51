import Mathlib.Algebra.GroupWithZero.Nat
import Mathlib.Data.List.Chain
import Mathlib.Data.List.Pairwise
import Mathlib.Tactic.Common

/-!
# Tilings

Intervals that follow one another without a gap: each begins where the one before it ends, and none
is empty.  Such intervals are in order, do not meet, cover everything between the ends of the tiling,
and their sizes add up.

Nothing here names a particular program.
-/

namespace Lsw.Lib

variable {β : Type} (first past : β → Nat)

/-- The intervals go from `a` to `b`.  An interval ends before its `past`. -/
inductive Tiles : Nat → List β → Nat → Prop where
  | nil (a : Nat) : Tiles a [] a
  | snoc {a b : Nat} {xs : List β} {x : β} (h : Tiles a xs b) (hfirst : first x = b)
      (hpast : b < past x) : Tiles a (xs ++ [x]) (past x)

variable {first past} {a b : Nat} {xs : List β}

namespace Tiles

theorem le (h : Tiles first past a xs b) : a ≤ b := by
  induction h with
  | nil => exact Nat.le_refl a
  | snoc _ _ hpast ih => exact Nat.le_trans ih (Nat.le_of_lt hpast)

theorem ne_nil (h : Tiles first past a xs b) (hab : a < b) : xs ≠ [] := by
  cases h with
  | nil => exact absurd hab (Nat.lt_irrefl _)
  | snoc _ _ _ => simp

theorem mem (h : Tiles first past a xs b) {x : β} (hx : x ∈ xs) :
    a ≤ first x ∧ first x < past x ∧ past x ≤ b := by
  induction h with
  | nil => exact absurd hx List.not_mem_nil
  | snoc h hfirst hpast ih =>
    obtain hx | hx := List.mem_append.mp hx
    · obtain ⟨hlow, hne, hhigh⟩ := ih hx
      exact ⟨hlow, hne, Nat.le_trans hhigh (Nat.le_of_lt hpast)⟩
    · obtain rfl := List.mem_singleton.mp hx
      exact ⟨hfirst ▸ h.le, hfirst ▸ hpast, Nat.le_refl _⟩

/-- The intervals are in order and do not meet. -/
theorem pairwise (h : Tiles first past a xs b) :
    xs.Pairwise fun x y => past x ≤ first y := by
  induction h with
  | nil => exact .nil
  | snoc h hfirst _ ih =>
    refine List.pairwise_append.mpr ⟨ih, List.pairwise_singleton _ _, fun x hx y hy => ?_⟩
    obtain rfl := List.mem_singleton.mp hy
    exact hfirst ▸ (h.mem hx).2.2

/-- There is no gap. -/
theorem covers (h : Tiles first past a xs b) (i : Nat) :
    (a ≤ i ∧ i < b) ↔ ∃ x ∈ xs, first x ≤ i ∧ i < past x := by
  induction h with
  | nil =>
    refine ⟨fun hi => absurd hi.2 (Nat.not_lt.mpr hi.1), ?_⟩
    rintro ⟨x, hx, _⟩
    exact absurd hx List.not_mem_nil
  | snoc h hfirst hpast ih =>
    simp only [List.mem_append, List.mem_singleton, or_and_right, exists_or, exists_eq_left,
      ← ih, hfirst]
    have hab := h.le
    omega

theorem sum (h : Tiles first past a xs b) : a + (xs.map fun x => past x - first x).sum = b := by
  induction h with
  | nil => simp
  | snoc _ hfirst hpast ih =>
    simp only [List.map_append, List.sum_append, List.map_cons, List.map_nil, List.sum_cons,
      List.sum_nil]
    omega

/-- Each begins where the one before it ends. -/
theorem isChain (h : Tiles first past a xs b) :
    xs.IsChain (fun x y => first y = past x) ∧ (∀ x ∈ xs.getLast?, past x = b) ∧
      (∀ x ∈ xs.head?, first x = a) := by
  induction h with
  | nil => exact ⟨.nil, nofun, nofun⟩
  | snoc h hfirst hpast ih =>
    obtain ⟨hchain, hlast, hhead⟩ := ih
    refine ⟨List.isChain_append.mpr ⟨hchain, .singleton _, fun y hy z hz => ?_⟩, by simp, ?_⟩
    · obtain rfl := Option.some.inj hz
      rw [hfirst, hlast y hy]
    · cases h with
      | nil => simpa using hfirst
      | snoc _ _ _ => simpa using hhead

end Tiles

end Lsw.Lib
