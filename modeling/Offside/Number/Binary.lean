/-
This file places the finite binary64 magnitudes among the rationals and rounds to them.
-/

namespace Offside.Number

/-- The bits of positive infinity, one past the bits of the largest finite magnitude. -/
def infinityBits : Nat := 2047 * Nat.pow 2 52

/-- A finite magnitude is a whole number of units of `2 ^ -1074`, the least positive one. -/
def unitDenominator : Nat := Nat.pow 2 1074

/-- This is the number of units of the magnitude with these bits. Below `2 ^ 52` the bits count
units directly; after that each step of the exponent field doubles the gap between neighbours. -/
def units (bits : Nat) : Nat :=
  if bits < Nat.pow 2 52 then bits
  else (Nat.pow 2 52 + bits % Nat.pow 2 52) * Nat.pow 2 (bits / Nat.pow 2 52 - 1)

/-- The quotient goes to its nearest integer, and a half goes to the even one. -/
def roundDiv (numerator denominator : Nat) : Nat :=
  let floor := numerator / denominator
  let twice := 2 * (numerator % denominator)
  if twice < denominator then floor
  else if denominator < twice then floor + 1
  else floor + floor % 2

/-- This is the number of low bits that a count of units cannot keep in a 53-bit significand. -/
def excess (count : Nat) : Nat := Nat.log2 count - 52

/-- These are the bits of the magnitude nearest to a quotient, with ties to the even significand.
A significand that rounds up to `2 ^ 53` carries into the exponent field, so the sum below is right
in that case too. Quotients past the largest finite magnitude give infinity. -/
def nearest (numerator denominator : Nat) : Nat :=
  let scaled := numerator * unitDenominator
  let shift := excess (scaled / denominator)
  let bits := shift * Nat.pow 2 52 + roundDiv scaled (denominator * Nat.pow 2 shift)
  min bits infinityBits

end Offside.Number
