import Mathlib.Tactic.NormNum

/-!
# The machine word of a build

A program compiled for one machine has one width of address. `Usize` is that width, four or
eight bytes, and the arithmetic that wraps at it.
-/

/-- The width in bytes of `usize` in the build under consideration. -/
class Usize where
  bytes : Nat
  bytes_eq : bytes = 4 ∨ bytes = 8

namespace Usize

/-- A 64-bit build. -/
@[reducible] def eight : Usize := ⟨8, .inr rfl⟩

/-- A 32-bit build. -/
@[reducible] def four : Usize := ⟨4, .inl rfl⟩

variable [Usize]

/-- The number of values of a `usize`. -/
def count : Nat := 256 ^ bytes

def wrappingAdd (left right : Nat) : Nat := (left + right) % count

def wrappingSub (left right : Nat) : Nat := (left + (count - right % count)) % count

theorem bytes_pos : 0 < bytes := by
  rcases bytes_eq with four | eight <;> omega

theorem count_pos : 0 < count := Nat.pow_pos (by omega)

theorem bytes_dvd_count : bytes ∣ count := by
  rcases bytes_eq with four | eight
  · rw [count, four]
    norm_num
  · rw [count, eight]
    norm_num

/-- Every 32-bit number is a `usize`. -/
theorem word_le_count : 2 ^ 32 ≤ count := by
  rcases bytes_eq with four | eight
  · rw [count, four]
    norm_num
  · rw [count, eight]
    norm_num

/-- A subtraction that does not go below zero does not wrap. -/
theorem wrappingSub_of_le {left right : Nat} (le : right ≤ left) (small : left < count) :
    wrappingSub left right = left - right := by
  have right_small : right < count := by omega
  rw [wrappingSub, Nat.mod_eq_of_lt right_small, show left + (count - right) =
    (left - right) + count by omega, Nat.add_mod_right, Nat.mod_eq_of_lt (by omega)]

theorem wrappingAdd_of_lt {left right : Nat} (small : left + right < count) :
    wrappingAdd left right = left + right :=
  Nat.mod_eq_of_lt small

theorem wrappingAdd_zero {start : Nat} (small : start < count) : wrappingAdd start 0 = start := by
  rw [wrappingAdd, Nat.add_zero, Nat.mod_eq_of_lt small]

end Usize
