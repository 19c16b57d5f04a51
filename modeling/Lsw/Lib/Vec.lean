import Mathlib.Data.List.Perm.Basic
import Mathlib.Tactic.Common

/-!
# Growable Arrays

`Vec::swap_remove` takes an element out by putting the last one in its place.  It keeps
everything else, in another order, so what it keeps is stated up to permutation.
-/

namespace Lsw.Lib

variable {α : Type}

/-- `Vec::swap_remove`, at an index of the array. -/
def swapRemove (xs : List α) (i : Nat) : List α :=
  match xs.getLast? with
  | none => xs
  | some last => (xs.set i last).dropLast

/-- The last element just goes. -/
theorem swapRemove_last (before : List α) (x : α) :
    swapRemove (before ++ [x]) before.length = before := by
  simp [swapRemove]

/-- Another element is replaced by the last one. -/
theorem swapRemove_inner (before after : List α) (x last : α) :
    swapRemove (before ++ x :: (after ++ [last])) before.length = before ++ last :: after := by
  have hxs : before ++ x :: (after ++ [last]) = (before ++ x :: after) ++ [last] := by simp
  have hset : (before ++ x :: (after ++ [last])).set before.length last =
      (before ++ last :: after) ++ [last] := by
    rw [List.set_append_right _ _ (Nat.le_refl _), Nat.sub_self, List.set_cons_zero]
    simp
  rw [swapRemove, hxs, List.getLast?_concat]
  dsimp only
  rw [← hxs, hset, List.dropLast_concat]

/-- Nothing is lost but the element taken out. -/
theorem swapRemove_perm {xs : List α} {i : Nat} {x : α} (h : xs[i]? = some x) :
    (x :: swapRemove xs i).Perm xs := by
  obtain ⟨hi, rfl⟩ := List.getElem?_eq_some_iff.mp h
  have hxs : xs.take i ++ xs[i] :: xs.drop (i + 1) = xs := by simp
  have hlen : (xs.take i).length = i := List.length_take_of_le (Nat.le_of_lt hi)
  generalize xs[i] = x at hxs ⊢
  generalize xs.take i = before at hxs hlen
  generalize xs.drop (i + 1) = after at hxs
  subst hlen hxs
  refine List.Perm.trans (List.Perm.cons _ ?_) List.perm_middle.symm
  -- Either the element is the last one, or the last one moves into its place.
  rcases List.eq_nil_or_concat after with rfl | ⟨after, last, rfl⟩
  · simp [swapRemove_last]
  · rw [List.concat_eq_append, swapRemove_inner]
    exact (List.perm_append_singleton last after).symm.append_left before

/-- The first place where the elements fulfil a condition. -/
theorem exists_of_findIdx? {xs : List α} {p : α → Bool} {i : Nat} (h : xs.findIdx? p = some i) :
    ∃ x, xs[i]? = some x ∧ p x = true := by
  obtain ⟨hi, hp, -⟩ := List.findIdx?_eq_some_iff_getElem.mp h
  exact ⟨xs[i], List.getElem?_eq_getElem hi, hp⟩

/-- To find an element and to remove it at its place is to erase it. -/
theorem eraseIdx_of_findIdx? [DecidableEq α] {xs : List α} {a : α} {i : Nat}
    (h : xs.findIdx? (· == a) = some i) : a ∈ xs ∧ xs.eraseIdx i = xs.erase a := by
  obtain ⟨x, hget, hx⟩ := exists_of_findIdx? h
  obtain rfl : x = a := by simpa using hx
  refine ⟨List.mem_of_getElem? hget, ?_⟩
  have hidx : xs.idxOf? x = some i := h
  rw [List.erase_eq_eraseIdx, hidx]

end Lsw.Lib
