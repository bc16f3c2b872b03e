/-
This file proves that rounding to the nearest magnitude depends on the value of a decimal only, and
that the shortest decimal of a magnitude rounds to it.
-/

import Offside.Number.Decimal
import Mathlib.Algebra.Order.Ring.Rat
import Mathlib.Tactic.Ring

namespace Offside.Number

section Rounding

variable {numerator denominator bits factor : Nat}

/-- A common factor does not change the rounded quotient. -/
theorem roundDiv_scale (positive : 0 < factor) :
    roundDiv (numerator * factor) (denominator * factor) = roundDiv numerator denominator := by
  have below (first second : Nat) : first * factor < second * factor ↔ first < second :=
    Nat.mul_lt_mul_right positive
  unfold roundDiv
  rw [Nat.mul_div_mul_right _ _ positive, Nat.mul_mod_mul_right, ← Nat.mul_assoc]
  simp only [below]

/-- A whole quotient is not rounded. -/
theorem roundDiv_mul (quotient : Nat) (positive : 0 < denominator) :
    roundDiv (quotient * denominator) denominator = quotient := by
  simp [roundDiv, positive]

/-- Only the quotient counts, not the form in which it is given. -/
theorem nearest_scale (positive : 0 < factor) :
    nearest (numerator * factor) (denominator * factor) = nearest numerator denominator := by
  unfold nearest
  simp only [Nat.mul_right_comm _ factor, Nat.mul_div_mul_right _ _ positive,
    roundDiv_scale positive]

/-- Equal quotients have the same nearest number. -/
theorem nearest_congr {first second firstBase secondBase : Nat} (positive : 0 < firstBase)
    (positiveToo : 0 < secondBase) (same : first * secondBase = second * firstBase) :
    nearest first firstBase = nearest second secondBase := by
  rw [← nearest_scale positiveToo, same, Nat.mul_comm firstBase, nearest_scale positive]

/-- The shift of a full significand tells its size. -/
theorem log2_shifted {significand : Nat} (shift : Nat) (low : 2 ^ 52 ≤ significand)
    (high : significand < 2 ^ 53) : (significand * 2 ^ shift).log2 = 52 + shift := by
  have positive : 0 < 2 ^ shift := Nat.two_pow_pos shift
  have nonzero : significand * 2 ^ shift ≠ 0 := Nat.mul_ne_zero (by omega) (by omega)
  rw [Nat.log2_eq_iff nonzero, Nat.pow_add, Nat.add_right_comm, Nat.pow_add]
  exact ⟨Nat.mul_le_mul_right _ low, Nat.mul_lt_mul_of_pos_right high positive⟩

/-- The bits hold a shift and a significand, and the magnitude is the shifted significand. -/
theorem exists_shift (bits : Nat) : ∃ shift significand, bits = shift * 2 ^ 52 + significand ∧
    units bits = significand * 2 ^ shift ∧ excess (units bits) = shift := by
  by_cases small : bits < 2 ^ 52
  · have whole : units bits = bits := if_pos small
    have length : bits.log2 ≤ 52 := by
      by_cases zero : bits = 0
      · simp [zero]
      · exact Nat.le_of_lt ((Nat.log2_lt zero).2 small)
    refine ⟨0, bits, by omega, by rw [whole, Nat.pow_zero, Nat.mul_one], ?_⟩
    rw [whole, excess]
    omega
  · have whole : units bits = (2 ^ 52 + bits % 2 ^ 52) * 2 ^ (bits / 2 ^ 52 - 1) := if_neg small
    have split : bits = (bits / 2 ^ 52 - 1) * 2 ^ 52 + (2 ^ 52 + bits % 2 ^ 52) := by omega
    refine ⟨_, _, split, whole, ?_⟩
    rw [whole, excess, log2_shifted _ (by omega) (by omega)]
    omega

/-- A quotient that is a magnitude rounds to itself. -/
theorem nearest_units (positive : 0 < denominator) (finite : bits ≤ infinityBits)
    (exact : numerator * unitDenominator = units bits * denominator) :
    nearest numerator denominator = bits := by
  obtain ⟨shift, significand, split, whole, shifted⟩ := exists_shift bits
  have scaled : units bits * denominator = significand * (denominator * 2 ^ shift) := by
    rw [whole, Nat.mul_assoc, Nat.mul_comm denominator]
  have rounded : roundDiv (units bits * denominator) (denominator * 2 ^ shift) = significand := by
    rw [scaled]
    exact roundDiv_mul significand (Nat.mul_pos positive (Nat.two_pow_pos shift))
  calc nearest numerator denominator
      = min (excess (units bits * denominator / denominator) * 2 ^ 52 +
          roundDiv (units bits * denominator) (denominator *
            2 ^ excess (units bits * denominator / denominator))) infinityBits := by
        rw [← exact]
        rfl
    _ = min (shift * 2 ^ 52 + significand) infinityBits := by
        rw [Nat.mul_div_cancel _ positive, shifted, rounded]
    _ = bits := by
        rw [← split]
        exact Nat.min_eq_left finite

end Rounding

namespace Decimal

def value (decimal : Decimal) : ℚ := decimal.coefficient * 10 ^ decimal.exponent

theorem denominator_pos (decimal : Decimal) : 0 < decimal.denominator :=
  Nat.pow_pos (by decide)

/-- The value of a decimal is the quotient that is rounded. -/
theorem value_eq (decimal : Decimal) :
    decimal.value = (decimal.numerator : ℚ) / decimal.denominator := by
  have split : decimal.exponent = decimal.exponent.toNat - (-decimal.exponent).toNat := by omega
  have power : (10 : ℚ) ^ decimal.exponent =
      10 ^ decimal.exponent.toNat / 10 ^ (-decimal.exponent).toNat := by
    conv_lhs => rw [split]
    rw [zpow_sub₀ (by norm_num), zpow_natCast, zpow_natCast]
  rw [value, power, numerator, denominator, Nat.pow_eq, Nat.pow_eq]
  push_cast
  ring

/-- Decimals of one value have the same bits. -/
theorem toBits_congr {first second : Decimal} (same : first.value = second.value) :
    first.toBits = second.toBits := by
  have nonzero (decimal : Decimal) : (decimal.denominator : ℚ) ≠ 0 :=
    Nat.cast_ne_zero.2 decimal.denominator_pos.ne_zero
  rw [value_eq, value_eq, div_eq_div_iff (nonzero first) (nonzero second)] at same
  exact nearest_congr first.denominator_pos second.denominator_pos (by exact_mod_cast same)

/-- A power of ten in the exponent is a factor of the value. -/
theorem value_raise (coefficient : Nat) (exponent power : ℤ) :
    value ⟨coefficient, exponent + power⟩ = value ⟨coefficient, exponent⟩ * 10 ^ power := by
  rw [value, value, zpow_add₀ (by norm_num), mul_assoc]

/-- Zeros at the end of the coefficient count in the exponent. -/
theorem value_shift (coefficient places : Nat) (exponent : ℤ) :
    value ⟨coefficient * 10 ^ places, exponent⟩ = value ⟨coefficient, exponent + places⟩ := by
  rw [value_raise, value, value, zpow_natCast]
  push_cast
  ring

/-- Trimmed zeros leave the value as it is. -/
theorem value_trim (decimal : Decimal) : decimal.trim.value = decimal.value := by
  fun_induction trim decimal with
  | case1 decimal divisible inductionHypothesis =>
      have whole : decimal.coefficient / 10 * 10 ^ 1 = decimal.coefficient := by omega
      rw [inductionHypothesis, ← Nat.cast_one, ← value_shift, whole]
  | case2 => rfl

theorem toBits_zero : toBits ⟨0, 0⟩ = 0 := by
  apply nearest_units (denominator_pos _) (Nat.zero_le _)
  have none : units 0 = 0 := rfl
  rw [numerator, none, Nat.zero_mul, Nat.zero_mul, Nat.zero_mul]

/-- A coefficient with a power of five in it counts units of a power of two. -/
theorem numerator_fives (count places : Nat) :
    let decimal : Decimal := ⟨count * Nat.pow 5 places, -(places : ℤ)⟩
    decimal.numerator * Nat.pow 2 places = count * decimal.denominator := by
  simp [numerator, denominator, Nat.mul_assoc, ← Nat.mul_pow]

/-- The exact decimal of a number has its bits. -/
theorem toBits_exact {bits : Nat} (finite : bits ≤ infinityBits) : (exact bits).toBits = bits := by
  apply nearest_units (denominator_pos _) finite
  have places : (-1074 : ℤ) = -((1074 : ℕ) : ℤ) := rfl
  unfold exact unitDenominator
  rw [places]
  generalize 1074 = places
  exact numerator_fives (units bits) places

/-- The shortest decimal of a number has its bits. -/
theorem toBits_shortest {bits : Nat} (finite : bits ≤ infinityBits) :
    (shortest bits).toBits = bits := by
  rw [shortest, toBits_congr (value_trim _)]
  generalize same : (List.range 17).findSome? _ = found
  cases found with
  | none =>
      rw [Option.getD_none]
      exact toBits_exact finite
  | some decimal =>
      obtain ⟨places, -, passes⟩ := List.exists_of_findSome?_eq_some same
      rw [Option.getD_some]
      simpa only [beq_iff_eq] using List.find?_some passes

end Decimal

end Offside.Number
