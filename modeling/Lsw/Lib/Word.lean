import Lsw.Lib.Outcome
import Mathlib.Algebra.Order.Round
import Mathlib.Data.Rat.Floor
import Mathlib.Tactic.FieldSimp
import Mathlib.Tactic.Ring

/-!
# Machine Integers

Words and signed integers of a fixed number of bits, as natural numbers and integers.  An operation
that the source leaves unchecked panics when its result does not fit, and a conversion that it checks
reports that.

Nothing here names a particular program.
-/

namespace Lsw.Lib

variable {ε : Type}

/-! ## Unsigned words -/

/-- A 64-bit subtraction, panicking below zero. -/
def subUsize (a b : Nat) : Exec ε Nat := if b ≤ a then .ok (a - b) else .error .panic

/-- A result of an operation on words of so many bits. -/
def word (bits value : Nat) : Exec ε Nat := if value < 2 ^ bits then .ok value else .error .panic

theorem subUsize_eq_ok {a b : Nat} (h : b ≤ a) : subUsize (ε := ε) a b = .ok (a - b) := if_pos h

theorem word_eq_ok {bits value : Nat} (h : value < 2 ^ bits) :
    word (ε := ε) bits value = .ok value := if_pos h

/-! ## Signed integers -/

/-- The value is one of a signed integer of so many bits. -/
def FitsSigned (bits : Nat) (value : Int) : Prop := -2 ^ (bits - 1) ≤ value ∧ value < 2 ^ (bits - 1)

instance (bits : Nat) (value : Int) : Decidable (FitsSigned bits value) :=
  inferInstanceAs (Decidable (_ ∧ _))

/-- A result of an operation on signed integers of so many bits. -/
def signed (bits : Nat) (value : Int) : Exec ε Int :=
  if FitsSigned bits value then .ok value else .error .panic

theorem signed_eq_ok {bits : Nat} {value : Int} (h : FitsSigned bits value) :
    signed (ε := ε) bits value = .ok value := if_pos h

/-- `T::try_from(value).ok()`, for a signed type of so many bits. -/
def trySigned (bits : Nat) (value : Int) : Option Int :=
  if FitsSigned bits value then some value else none

theorem trySigned_eq_some {bits : Nat} {value : Int} (h : FitsSigned bits value) :
    trySigned bits value = some value := if_pos h

/-- `T::try_from(value).ok()`, for an unsigned type of so many bits. -/
def tryUnsigned (bits : Nat) (value : Int) : Option Nat :=
  if 0 ≤ value ∧ value < 2 ^ bits then some value.toNat else none

theorem tryUnsigned_eq_some {bits : Nat} {value : Int} (h : 0 ≤ value) (h' : value < 2 ^ bits) :
    tryUnsigned bits value = some value.toNat := if_pos ⟨h, h'⟩

/-! ## Rounded quotients -/

/-- Adding half of an odd divisor before a division rounds to the nearest whole number. -/
theorem round_div_odd (n k : Nat) :
    round ((n : ℚ) / (2 * k + 1 : Nat)) = ((n + k) / (2 * k + 1) : Nat) := by
  have hhalf : (n : ℚ) / (2 * k + 1 : Nat) + 1 / 2 =
      (2 * (n + k) + 1 : Nat) / (2 * (2 * k + 1) : Nat) := by
    push_cast
    field_simp
    ring
  have hodd : (2 * (n + k) + 1) / 2 = n + k := by omega
  rw [round_eq, hhalf, Rat.floor_natCast_div_natCast]
  exact congrArg Nat.cast ((Nat.div_div_eq_div_mul _ 2 _).symm.trans (by rw [hodd]))

end Lsw.Lib
