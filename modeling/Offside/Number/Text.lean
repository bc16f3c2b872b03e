/-
This file reads and writes numbers as text.
-/

import Offside.Number.Decimal

namespace Offside.Number

/-- The value of one decimal digit. -/
def digitValue (digit : Char) : Nat := digit.toNat - '0'.toNat

/-- The value of a run of decimal digits. -/
def digitsValue (digits : List Char) : Nat :=
  digits.foldl (fun value digit => 10 * value + digitValue digit) 0

/-- A literal is digits, or digits, a point and digits. -/
def literalDecimal (text : List Char) : Decimal :=
  let whole := text.takeWhile Char.isDigit
  let fraction := (text.dropWhile Char.isDigit).drop 1
  ⟨digitsValue (whole ++ fraction), -(fraction.length : Int)⟩

/-- A literal denotes the nearest binary64 number. -/
def ofLiteral (text : List Char) : Float :=
  Float.ofBits (UInt64.ofNat (literalDecimal text).toBits)

/-- A style says which decimals are written without an exponent, by the power of ten of their first
digit, and whether a whole number keeps a point and a zero. -/
structure Style where
  positional : Int → Bool
  keepsPoint : Bool

/-- Programs print every number without an exponent. -/
def printed : Style := ⟨fun _ => true, false⟩

/-- Listings mark every number as fractional and use exponents outside `10 ^ -4` to `10 ^ 16`. -/
def listed : Style := ⟨fun power => -4 ≤ power && power < 16, true⟩

/-- This is the decimal written without an exponent. -/
def positionalText (keepsPoint : Bool) (decimal : Decimal) : List Char :=
  let digits := decimal.digits
  let places := (-decimal.exponent).toNat
  if places = 0 then
    digits ++ List.replicate decimal.exponent.toNat '0' ++ (if keepsPoint then ['.', '0'] else [])
  else if places < digits.length then
    digits.take (digits.length - places) ++ '.' :: digits.drop (digits.length - places)
  else
    '0' :: '.' :: (List.replicate (places - digits.length) '0' ++ digits)

/-- This is the decimal written with its first digit before the point and an exponent. -/
def exponentText (decimal : Decimal) : List Char :=
  let exponent := decimal.leadingExponent
  let power := (if exponent < 0 then ['-'] else []) ++ Nat.toDigits 10 exponent.natAbs
  match decimal.digits with
  | [] => []
  | [digit] => digit :: 'e' :: power
  | digit :: fraction => digit :: '.' :: fraction ++ 'e' :: power

/-- This is the text of a magnitude that is not `NaN`. -/
def magnitudeText (style : Style) (bits : Nat) : List Char :=
  if infinityBits ≤ bits then ['i', 'n', 'f']
  else if bits = 0 then positionalText style.keepsPoint ⟨0, 0⟩
  else
    let decimal := Decimal.shortest bits
    if style.positional decimal.leadingExponent then positionalText style.keepsPoint decimal
    else exponentText decimal

/-- This is the text of a number, with a minus sign exactly when its sign bit is set. -/
def text (style : Style) (number : Float) : List Char :=
  let bits := number.toBits.toNat
  let magnitude := bits % Nat.pow 2 63
  if infinityBits < magnitude then ['N', 'a', 'N']
  else if bits < Nat.pow 2 63 then magnitudeText style magnitude
  else '-' :: magnitudeText style magnitude

end Offside.Number
