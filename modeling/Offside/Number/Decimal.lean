/-
This file holds decimals and finds the shortest one that reads back as a given magnitude.
-/

import Offside.Number.Binary

namespace Offside.Number

/-- A decimal is `coefficient * 10 ^ exponent`. -/
structure Decimal where
  coefficient : Nat
  exponent : Int
deriving DecidableEq, Repr

namespace Decimal

def numerator (decimal : Decimal) : Nat :=
  decimal.coefficient * Nat.pow 10 decimal.exponent.toNat

def denominator (decimal : Decimal) : Nat :=
  Nat.pow 10 (-decimal.exponent).toNat

/-- These are the bits of the magnitude nearest to the decimal. -/
def toBits (decimal : Decimal) : Nat :=
  nearest decimal.numerator decimal.denominator

/-- This decimal has the same value and no zero at its end. -/
def trim (decimal : Decimal) : Decimal :=
  if _divisible : decimal.coefficient ≠ 0 ∧ decimal.coefficient % 10 = 0 then
    trim ⟨decimal.coefficient / 10, decimal.exponent + 1⟩
  else decimal
termination_by decimal.coefficient
decreasing_by omega

/-- The digits of the coefficient, most significant first. -/
def digits (decimal : Decimal) : List Char := Nat.toDigits 10 decimal.coefficient

/-- The power of ten of the first digit. -/
def leadingExponent (decimal : Decimal) : Int :=
  decimal.exponent + decimal.digits.length - 1

/-- Every magnitude is a decimal, because its denominator is a power of two. -/
def exact (bits : Nat) : Decimal := ⟨units bits * Nat.pow 5 1074, -1074⟩

/-- The power of ten of the first digit of a nonzero magnitude. The power of two of its first bit
gives an estimate, which is at most one too small. -/
def firstPower (bits : Nat) : Int :=
  let estimate := ((units bits).log2 - 1074 : Int) * 30103 / 100000
  let next := estimate + 1
  if unitDenominator * Nat.pow 10 next.toNat ≤ units bits * Nat.pow 10 (-next).toNat then next
  else estimate

/-- The two neighbours of a magnitude among the multiples of a power of ten, the nearer one first.
The upper one is first when both are equally near. -/
def neighbours (bits : Nat) (power : Int) : List Decimal :=
  let numerator := units bits * Nat.pow 10 (-power).toNat
  let denominator := unitDenominator * Nat.pow 10 power.toNat
  let below : Decimal := ⟨numerator / denominator, power⟩
  let above : Decimal := ⟨numerator / denominator + 1, power⟩
  if 2 * (numerator % denominator) < denominator then [below, above] else [above, below]

/-- The first of the neighbours with `1, 2, …, 17` digits that reads back. Seventeen digits always
suffice, and the exact decimal stands by. -/
def shortest (bits : Nat) : Decimal :=
  let power := firstPower bits
  let found := (List.range 17).findSome? fun (places : Nat) =>
    (neighbours bits (power - places)).find? fun decimal => decimal.toBits == bits
  (found.getD (exact bits)).trim

end Decimal

end Offside.Number
