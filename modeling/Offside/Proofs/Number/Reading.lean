/-
This file proves that the text of a number reads back as the same number.
-/

import Offside.Proofs.Lexeme.Grammar
import Offside.Proofs.Number.Nearest
import Mathlib

namespace Offside.Number

section Digits

/-- Further digits raise the value of those before them. -/
theorem digitsValue_append (first second : List Char) :
    digitsValue (first ++ second) =
      digitsValue first * 10 ^ second.length + digitsValue second := by
  change Nat.ofDigitChars 10 (first ++ second) 0 = _
  rw [Nat.ofDigitChars_append, Nat.ofDigitChars_eq_ofDigitChars_zero, Nat.mul_comm]
  rfl

theorem digitsValue_zeros (count : Nat) : digitsValue (List.replicate count '0') = 0 :=
  Nat.ofDigitChars_replicate_zero

/-- The digits of a number have its value. -/
theorem digitsValue_toDigits (value : Nat) : digitsValue (Nat.toDigits 10 value) = value :=
  Nat.ofDigitChars_ten_toDigits

theorem digits_toDigits (value : Nat) : Digits (Nat.toDigits 10 value) where
  nonempty := Nat.toDigits_ne_nil
  all c member := Nat.isDigit_of_mem_toDigits (by decide) (by decide) member

/-- A whole number has no point. -/
def pointedText (whole fraction : List Char) : List Char :=
  whole ++ if fraction = [] then [] else '.' :: fraction

/-- A pointed text has the value of its digits. -/
theorem literalDecimal_pointedText {whole : List Char} (digits : Digits whole)
    (fraction : List Char) : literalDecimal (pointedText whole fraction) =
      ⟨digitsValue (whole ++ fraction), -(fraction.length : ℤ)⟩ := by
  unfold literalDecimal pointedText
  rw [List.takeWhile_append_of_pos digits.all, List.dropWhile_append_of_pos digits.all]
  split
  next empty => simp [empty]
  next => simp

/-- The text is digits, with a point among them or without one, and their value is that of the
decimal. -/
def Writes (text : List Char) (decimal : Decimal) : Prop :=
  ∃ whole fraction, Digits whole ∧ (∀ c ∈ fraction, c.isDigit = true) ∧
    text = pointedText whole fraction ∧
    Decimal.value ⟨digitsValue (whole ++ fraction), -(fraction.length : ℤ)⟩ = decimal.value

theorem isDigit_zeros (count : Nat) : ∀ c ∈ List.replicate count '0', c.isDigit = true := by
  intro c member
  rw [List.eq_of_mem_replicate member]
  rfl

variable (decimal : Decimal)

theorem digits_digits : Digits decimal.digits := digits_toDigits decimal.coefficient

theorem digitsValue_digits : digitsValue decimal.digits = decimal.coefficient :=
  digitsValue_toDigits decimal.coefficient

/-- A decimal without places may have a zero after the point. -/
theorem writes_whole (whole : 0 ≤ decimal.exponent) (zeros : Nat) :
    Writes (pointedText (decimal.digits ++ List.replicate decimal.exponent.toNat '0')
      (List.replicate zeros '0')) decimal := by
  have digits := digits_digits decimal
  refine ⟨_, _, ⟨by simp [digits.nonempty], ?_⟩, isDigit_zeros zeros, rfl, ?_⟩
  · exact List.forall_mem_append.2 ⟨digits.all, isDigit_zeros _⟩
  · rw [List.append_assoc, ← List.replicate_add, digitsValue_append, digitsValue_zeros,
      digitsValue_digits, Nat.add_zero, List.length_replicate, List.length_replicate,
      Decimal.value_shift]
    congr
    omega

/-- The point stands among the digits. -/
theorem writes_inside {places : Nat} (same : decimal.exponent = -places)
    (inside : places < decimal.digits.length) :
    Writes (pointedText (decimal.digits.take (decimal.digits.length - places))
      (decimal.digits.drop (decimal.digits.length - places))) decimal := by
  have digits := digits_digits decimal
  refine ⟨_, _, ⟨?_, ?_⟩, ?_, rfl, ?_⟩
  · exact List.ne_nil_of_length_pos (by rw [List.length_take]; omega)
  · exact fun c member => digits.all c (List.mem_of_mem_take member)
  · exact fun c member => digits.all c (List.mem_of_mem_drop member)
  · rw [List.take_append_drop, digitsValue_digits, List.length_drop]
    congr
    omega

/-- The point stands before all digits, with zeros between. -/
theorem writes_before {places : Nat} (same : decimal.exponent = -places)
    (before : decimal.digits.length ≤ places) :
    Writes (pointedText ['0']
      (List.replicate (places - decimal.digits.length) '0' ++ decimal.digits)) decimal := by
  have digits := digits_digits decimal
  refine ⟨_, _, ⟨by simp, isDigit_zeros 1⟩, ?_, rfl, ?_⟩
  · exact List.forall_mem_append.2 ⟨isDigit_zeros _, digits.all⟩
  · rw [List.length_append, List.length_replicate, ← List.append_assoc, ← List.replicate_add,
      digitsValue_append, digitsValue_zeros, digitsValue_digits, Nat.zero_mul, Nat.zero_add]
    congr
    omega

/-- A text by positions writes its decimal. -/
theorem positionalText_writes (keepsPoint : Bool) :
    Writes (positionalText keepsPoint decimal) decimal := by
  unfold positionalText
  dsimp only
  split
  next whole =>
    cases keepsPoint with
    | false => simpa [pointedText] using writes_whole decimal (by omega) 0
    | true => simpa [pointedText] using writes_whole decimal (by omega) 1
  next fractional =>
    have same : decimal.exponent = -((-decimal.exponent).toNat : ℤ) := by omega
    split
    next inside =>
      have written := writes_inside decimal same inside
      rwa [pointedText, if_neg (by rw [List.drop_eq_nil_iff]; omega)] at written
    next before =>
      have written := writes_before decimal same (by omega)
      rwa [pointedText, if_neg (by simp [(digits_digits decimal).nonempty])] at written

/-- The exponent after a listed number. -/
def powerValue (text : List Char) : ℤ :=
  if text.head? = some '-' then -(digitsValue text.tail : ℤ) else digitsValue text

/-- A listed number is a literal, perhaps with an exponent after it. -/
def listedDecimal (text : List Char) : Decimal :=
  let mantissa := literalDecimal (text.takeWhile (· != 'e'))
  ⟨mantissa.coefficient,
    mantissa.exponent + powerValue ((text.dropWhile (· != 'e')).drop 1)⟩

/-- The text of an exponent has its value. -/
theorem powerValue_signed (exponent : ℤ) :
    powerValue ((if exponent < 0 then ['-'] else []) ++ Nat.toDigits 10 exponent.natAbs) =
      exponent := by
  have read := digitsValue_toDigits exponent.natAbs
  unfold powerValue
  split
  next negative =>
    rw [if_pos (by rfl)]
    change -(digitsValue (Nat.toDigits 10 exponent.natAbs) : ℤ) = exponent
    omega
  next =>
    have unsigned : (Nat.toDigits 10 exponent.natAbs).head? ≠ some '-' := by
      intro sign
      exact absurd ((digits_toDigits _).all '-' (List.mem_of_head? sign)) (by decide)
    rw [List.nil_append, if_neg unsigned]
    omega

/-- With an exponent, a decimal is written with its first digit before the point. -/
theorem exponentText_eq : ∃ mantissa, Writes mantissa ⟨decimal.coefficient,
    decimal.exponent - decimal.leadingExponent⟩ ∧ exponentText decimal = mantissa ++ 'e' ::
      ((if decimal.leadingExponent < 0 then ['-'] else []) ++
        Nat.toDigits 10 decimal.leadingExponent.natAbs) := by
  have digits := digits_digits decimal
  have read := digitsValue_digits decimal
  have leading : decimal.leadingExponent = decimal.exponent + decimal.digits.length - 1 := rfl
  unfold exponentText
  dsimp only
  generalize decimal.leadingExponent = exponent at *
  generalize decimal.digits = text at *
  cases text with
  | nil => exact absurd rfl digits.nonempty
  | cons first others =>
      refine ⟨pointedText [first] others, ⟨[first], others, ?_, ?_, rfl, ?_⟩, ?_⟩
      · exact ⟨by simp, by simp [digits.all first]⟩
      · exact fun c member => digits.all c (List.mem_cons_of_mem first member)
      · rw [List.singleton_append, read]
        rw [List.length_cons] at leading
        congr
        omega
      · cases others <;> simp [pointedText]

end Digits

section Listed

variable {text : List Char} {decimal : Decimal}

namespace Writes

/-- A written decimal has its value as a literal. -/
theorem literal (writes : Writes text decimal) : (literalDecimal text).value = decimal.value := by
  obtain ⟨whole, fraction, digits, -, rfl, value⟩ := writes
  rw [literalDecimal_pointedText digits, value]

/-- A written decimal starts with a digit. -/
theorem starts (writes : Writes text decimal) :
    ∃ first rest, text = first :: rest ∧ first.isDigit = true := by
  obtain ⟨whole, fraction, digits, -, rfl, -⟩ := writes
  cases whole with
  | nil => exact absurd rfl digits.nonempty
  | cons first others => exact ⟨first, _, rfl, digits.all first List.mem_cons_self⟩

/-- A written decimal is made of digits and a point. -/
theorem chars (writes : Writes text decimal) : ∀ c ∈ text, c.isDigit = true ∨ c = '.' := by
  obtain ⟨whole, fraction, digits, more, rfl, -⟩ := writes
  intro c member
  rw [pointedText, List.mem_append] at member
  obtain member | member := member
  · exact .inl (digits.all c member)
  · split at member
    · cases member
    · obtain rfl | member := List.mem_cons.1 member
      · exact .inr rfl
      · exact .inl (more c member)

/-- A written decimal has no exponent. -/
theorem free (writes : Writes text decimal) : ∀ c ∈ text, (c != 'e') = true := by
  intro c member
  rw [bne_iff_ne]
  rintro rfl
  exact absurd (writes.chars _ member) (by decide)

/-- A written decimal has its value as a listed number. -/
theorem listed (writes : Writes text decimal) : (listedDecimal text).value = decimal.value := by
  have free := writes.free
  rw [listedDecimal, List.takeWhile_eq_self_iff.2 free, List.dropWhile_eq_nil_iff.2 free]
  have absent : powerValue (([] : List Char).drop 1) = 0 := rfl
  rw [absent, add_zero]
  exact writes.literal

/-- An exponent raises a listed number by its power of ten. -/
theorem listed_power (writes : Writes text decimal) (power : List Char) :
    (listedDecimal (text ++ 'e' :: power)).value = decimal.value * 10 ^ powerValue power := by
  have front : (text ++ 'e' :: power).takeWhile (· != 'e') = text := by
    rw [List.takeWhile_append_of_pos writes.free]
    simp
  have back : (text ++ 'e' :: power).dropWhile (· != 'e') = 'e' :: power := by
    rw [List.dropWhile_append_of_pos writes.free]
    simp
  rw [listedDecimal, front, back, Decimal.value_raise, ← writes.literal]
  rfl

end Writes

/-- The text with an exponent has the value of its decimal. -/
theorem listed_exponentText (decimal : Decimal) :
    (listedDecimal (exponentText decimal)).value = decimal.value := by
  obtain ⟨mantissa, written, text⟩ := exponentText_eq decimal
  rw [text, written.listed_power, powerValue_signed, ← Decimal.value_raise, sub_add_cancel]

/-- A finite magnitude is written as one of its decimals. -/
theorem magnitudeText_eq (style : Style) {bits : Nat} (finite : bits < infinityBits) :
    ∃ decimal : Decimal, decimal.toBits = bits ∧
      (magnitudeText style bits = positionalText style.keepsPoint decimal ∨
        style.positional decimal.leadingExponent = false ∧
          magnitudeText style bits = exponentText decimal) := by
  rw [magnitudeText, if_neg (Nat.not_le.2 finite)]
  split
  next zero => exact ⟨⟨0, 0⟩, by rw [zero, Decimal.toBits_zero], .inl rfl⟩
  next =>
    refine ⟨Decimal.shortest bits, Decimal.toBits_shortest (Nat.le_of_lt finite), ?_⟩
    dsimp only
    split
    · exact .inl rfl
    next other => exact .inr ⟨Bool.not_eq_true _ ▸ other, rfl⟩

/-- The listed text of a finite magnitude determines its bits. -/
theorem listedDecimal_magnitudeText (style : Style) {bits : Nat} (finite : bits < infinityBits) :
    (listedDecimal (magnitudeText style bits)).toBits = bits := by
  obtain ⟨decimal, same, text | ⟨-, text⟩⟩ := magnitudeText_eq style finite
  · rw [text, Decimal.toBits_congr (positionalText_writes decimal _).listed, same]
  · rw [text, Decimal.toBits_congr (listed_exponentText decimal), same]

/-- The text of a finite magnitude starts with a digit and has few other characters. -/
theorem magnitudeText_chars (style : Style) {bits : Nat} (finite : bits < infinityBits) :
    (∃ first rest, magnitudeText style bits = first :: rest ∧ first.isDigit = true) ∧
      ∀ c ∈ magnitudeText style bits, c.isDigit = true ∨ c ∈ ['.', 'e', '-'] := by
  obtain ⟨decimal, -, text | ⟨-, text⟩⟩ := magnitudeText_eq style finite
  · have written := positionalText_writes decimal style.keepsPoint
    rw [text]
    refine ⟨written.starts, fun c member => (written.chars c member).imp_right ?_⟩
    rintro rfl
    decide
  · obtain ⟨mantissa, written, same⟩ := exponentText_eq decimal
    obtain ⟨first, rest, rfl, digit⟩ := written.starts
    rw [text, same]
    refine ⟨⟨first, _, rfl, digit⟩, fun c member => ?_⟩
    simp only [List.mem_append, List.mem_cons (b := 'e')] at member
    obtain member | rfl | member | member := member
    · exact (written.chars c member).imp_right fun same => by rw [same]; decide
    · exact .inr (by decide)
    · split at member
      · exact .inr (by rw [List.mem_singleton.1 member]; decide)
      · cases member
    · exact .inl ((digits_toDigits _).all c member)

end Listed

section Floats

open Float.Model

/-- The exponent is the eleven bits above the mantissa. -/
theorem toNat_unpackExponent (bits : BitVec Format.binary64.numBits) :
    (UnpackedFloat.unpackExponent bits).toNat = bits.toNat / 2 ^ 52 % 2 ^ 11 := by
  simp [UnpackedFloat.unpackExponent, Nat.shiftRight_eq_div_pow]

/-- The mantissa is the lowest bits. -/
theorem toNat_unpackMantissa (bits : BitVec Format.binary64.numBits) :
    (UnpackedFloat.unpackMantissa bits).toNat = bits.toNat % 2 ^ 52 := by
  simp [UnpackedFloat.unpackMantissa]

/-- The sign is the highest bit. -/
theorem toNat_unpackSign (bits : BitVec Format.binary64.numBits) :
    (UnpackedFloat.unpackSign bits).toNat = bits.toNat / 2 ^ 63 % 2 := by
  simp [UnpackedFloat.unpackSign, Nat.shiftRight_eq_div_pow]

variable {bits : Nat}

/-- The bits of a magnitude fit a word. -/
theorem toNat_bits (within : bits ≤ infinityBits) : (UInt64.ofNat bits).toNat = bits := by
  have limit : infinityBits = 2047 * 2 ^ 52 := rfl
  have size : UInt64.size = 2 ^ 64 := rfl
  exact UInt64.toNat_ofNat_of_lt' (by omega)

/-- Up to infinity no bits stand for a `NaN`. -/
theorem valid_of_le (within : bits ≤ infinityBits) :
    Format.binary64.Valid (UInt64.ofNat bits).toBitVec := by
  have limit : infinityBits = 2047 * 2 ^ 52 := rfl
  have small : (UInt64.ofNat bits).toBitVec.toNat = bits := toNat_bits within
  constructor
  intro exponent mantissa
  have high : bits / 2 ^ 52 % 2 ^ 11 = 2047 := by
    have same := congrArg BitVec.toNat exponent
    rwa [toNat_unpackExponent, small] at same
  refine absurd (BitVec.eq_of_toNat_eq ?_) mantissa
  rw [toNat_unpackMantissa, small]
  change bits % 2 ^ 52 = 0
  omega

/-- The bits of a magnitude make a number as they are. -/
theorem ofBits_eq (within : bits ≤ infinityBits) :
    Float.ofBits (UInt64.ofNat bits) = .ofModel ⟨UInt64.ofNat bits, valid_of_le within⟩ :=
  Float.ofBits_toBits (.ofModel ⟨UInt64.ofNat bits, valid_of_le within⟩)

/-- A magnitude keeps its bits. -/
theorem toBits_ofBits (within : bits ≤ infinityBits) :
    (Float.ofBits (UInt64.ofNat bits)).toBits.toNat = bits := by
  rw [ofBits_eq within]
  exact toNat_bits within

/-- The number is a magnitude, perhaps infinite. -/
def IsMagnitude (number : Float) : Prop := number.toBits.toNat ≤ infinityBits

instance (number : Float) : Decidable (IsMagnitude number) := inferInstanceAs (Decidable (_ ≤ _))

/-- A decimal stands for a magnitude. -/
theorem isMagnitude_ofBits (decimal : Decimal) :
    IsMagnitude (Float.ofBits (UInt64.ofNat decimal.toBits)) := by
  have within : decimal.toBits ≤ infinityBits := Nat.min_le_right _ _
  rw [IsMagnitude, toBits_ofBits within]
  exact within

/-- A magnitude is written without a sign. -/
theorem text_of_isMagnitude (style : Style) {number : Float} (magnitude : IsMagnitude number) :
    text style number = magnitudeText style number.toBits.toNat := by
  have limit : infinityBits = 2047 * 2 ^ 52 := rfl
  have within : number.toBits.toNat ≤ infinityBits := magnitude
  have small : number.toBits.toNat < Nat.pow 2 63 := by
    change _ < 2 ^ 63
    omega
  rw [text, Nat.mod_eq_of_lt small, if_neg (Nat.not_lt.2 within), if_pos small]

end Floats

end Offside.Number
