/-
This file proves that a printed number is a script whose value is the number.
-/

import Offside.Evaluate
import Offside.Proofs.Expression.Complete
import Offside.Proofs.Lexeme.Rescan
import Offside.Proofs.Number.Reading

namespace Offside

namespace Number

section Sign

open Float.Model UnpackedFloat

section Unpacked

variable {bits signed : BitVec Format.binary64.numBits}

/-- The magnitude of a finite number is below the infinite one. -/
theorem lt_of_isFinite (finite : (UnpackedFloat.unpack .binary64 bits).isFinite = true) :
    bits.toNat % 2 ^ 63 < infinityBits := by
  by_contra beyond
  have limit : infinityBits = 2047 * 2 ^ 52 := rfl
  have full : unpackExponent bits = -1#11 := by
    apply BitVec.eq_of_toNat_eq
    rw [toNat_unpackExponent]
    change bits.toNat / 2 ^ 52 % 2 ^ 11 = 2047
    omega
  rw [UnpackedFloat.unpack, if_pos full] at finite
  split at finite <;> cases finite

/-- The first bit is the sign and nothing else. -/
theorem unpack_of_sign (above : signed.toNat = bits.toNat + 2 ^ 63) :
    UnpackedFloat.unpack .binary64 signed = (UnpackedFloat.unpack .binary64 bits).neg := by
  have width : signed.toNat < 2 ^ 64 := signed.isLt
  have exponent : unpackExponent signed = unpackExponent bits := by
    apply BitVec.eq_of_toNat_eq
    rw [toNat_unpackExponent, toNat_unpackExponent]
    omega
  have mantissa : unpackMantissa signed = unpackMantissa bits := by
    apply BitVec.eq_of_toNat_eq
    rw [toNat_unpackMantissa, toNat_unpackMantissa]
    omega
  have negative : unpackSign signed = 1#1 := by
    apply BitVec.eq_of_toNat_eq
    rw [toNat_unpackSign]
    change signed.toNat / 2 ^ 63 % 2 = 1
    omega
  have positive : unpackSign bits = 0#1 := by
    apply BitVec.eq_of_toNat_eq
    rw [toNat_unpackSign]
    change bits.toNat / 2 ^ 63 % 2 = 0
    omega
  unfold UnpackedFloat.unpack
  simp only [exponent, mantissa, negative, positive]
  split
  · split <;> rfl
  · split
    · split <;> rfl
    · rfl

end Unpacked

variable {number : Float} {bits : Nat}

/-- The bits below the sign are those of a finite magnitude. -/
theorem magnitude_lt (finite : number.isFinite = true) :
    number.toBits.toNat % 2 ^ 63 < infinityBits := lt_of_isFinite finite

/-- A number with its sign set is the negative of its magnitude. -/
theorem neg_ofBits (within : bits ≤ infinityBits)
    (signed : number.toBits.toNat = bits + 2 ^ 63) :
    -Float.ofBits (UInt64.ofNat bits) = number := by
  have above : number.toBits.toBitVec.toNat =
      (UInt64.ofNat bits).toBitVec.toNat + 2 ^ 63 := by
    have small : (UInt64.ofNat bits).toBitVec.toNat = bits := toNat_bits within
    rw [small]
    exact signed
  calc -Float.ofBits (UInt64.ofNat bits)
      = .ofModel (pack (UnpackedFloat.unpack .binary64 (UInt64.ofNat bits).toBitVec).neg) := by
        rw [ofBits_eq within]
        rfl
    _ = Float.ofBits number.toBits := by
        rw [← unpack_of_sign above]
        rfl
    _ = number := number.ofBits_toBits

end Sign

section Text

variable {number : Float}

/-- A written decimal is a literal of the number nearest to it. -/
theorem Writes.denotes {text : List Char} {decimal : Decimal} (writes : Writes text decimal) :
    Denotes text .number (some (.number (Float.ofBits (UInt64.ofNat decimal.toBits)))) := by
  obtain ⟨whole, fraction, digits, more, rfl, value⟩ := writes
  have literal : .number (Float.ofBits (UInt64.ofNat decimal.toBits)) = pointed whole fraction := by
    rw [pointed, Decimal.toBits_congr value]
  rw [literal, pointedText]
  split
  next empty =>
    rw [empty, List.append_nil]
    exact .whole digits
  next some => exact .fraction digits ⟨some, more⟩

/-- A finite number is printed as a literal for it, or as a minus sign and a literal for its
negative. -/
theorem text_printed (finite : number.isFinite = true) :
    ∃ (literal : List Char) (decimal : Decimal), Writes literal decimal ∧
      (text printed number = literal ∧
          Float.ofBits (UInt64.ofNat decimal.toBits) = number ∨
        text printed number = '-' :: literal ∧
          -Float.ofBits (UInt64.ofNat decimal.toBits) = number) := by
  have within := magnitude_lt finite
  have width := number.toBits.toNat_lt
  have signed : text printed number = if number.toBits.toNat < 2 ^ 63 then
      magnitudeText printed (number.toBits.toNat % 2 ^ 63)
      else '-' :: magnitudeText printed (number.toBits.toNat % 2 ^ 63) :=
    if_neg (Nat.not_lt.2 (Nat.le_of_lt within))
  obtain ⟨decimal, bits, same | ⟨exponent, -⟩⟩ := magnitudeText_eq printed within
  · refine ⟨_, decimal, positionalText_writes decimal false, ?_⟩
    rw [signed, same, bits]
    split
    next positive =>
      refine .inl ⟨rfl, ?_⟩
      rw [Nat.mod_eq_of_lt positive, UInt64.ofNat_toNat, Float.ofBits_toBits]
    next negative =>
      refine .inr ⟨rfl, neg_ofBits (Nat.le_of_lt within) ?_⟩
      omega
  · cases exponent

end Text

end Number

/-- The layout closes a script of one line with these tokens. -/
def closing : List Token := [.layout .newline 1, .layout .eof 1]

/-- The text is one expression on a line of its own. In every scope of every machine it has this
value, and nothing else happens. -/
def Expresses (source : String) (value : Value) : Prop :=
  (scan source).errors = [] ∧
    ∃ (used : List Token) (tree : Expression) (after : Cursor),
      (scan source).tokens = used ++ closing ∧
      Parser.expression (.ofTokens (scan source).tokens) = .ok tree after ∧
      after.position = used.length ∧ after.rest = [.layout .newline 1] ∧
      ∀ (fuel scope : Nat) (machine : Machine), 2 ≤ fuel →
        evaluate fuel scope tree machine = .ok value machine

section Script

open Number

/-- An operand alone is an expression. -/
theorem Grammar.Unary.assignment {tokens : List Token} {tree : Expression}
    (derivation : Grammar.Unary tokens tree) : Grammar.Assignment tokens tree :=
  .chain (.single (.single (.single (.single (.single (.single (.operand derivation)))))))

/-- The parser stops before the end of the line. -/
theorem expression_closing {used : List Token} {tree : Expression}
    (derivation : Grammar.Assignment used tree) :
    ∃ after, Parser.expression (.ofTokens (used ++ closing)) = .ok tree after ∧
      after.position = used.length ∧ after.rest = [.layout .newline 1] := by
  have goesOn : ∀ token ∈ used, token.kind ≠ .eof := by
    intro token member eof
    have flat := Parser.flat_of_assignment derivation token member
    rw [eof] at flat
    cases flat
  have tokens : (Cursor.ofTokens (used ++ closing)).rest = used ++ [.layout .newline 1] :=
    Cursor.script_append goesOn closing
  have finds := Parser.expression_finds derivation
    (rfl : (Cursor.headKind [.layout .newline 1]).extendsExpression = false)
  obtain ⟨found, after, run, rfl, passes⟩ := (finds _ tokens).succeeds
  exact ⟨after, run, passes.position.trans (Nat.zero_add _), passes.rest_eq tokens⟩

/-- A script of one operand expresses its value. -/
theorem expresses_of_unary {source : String} {value : Value} {used : List Token}
    {tree : Expression} (scanned : scan source = ⟨used ++ closing, []⟩)
    (derivation : Grammar.Unary used tree)
    (runs : ∀ fuel scope machine, evaluate (fuel + 2) scope tree machine = .ok value machine) :
    Expresses source value := by
  obtain ⟨after, run, position, rest⟩ := expression_closing derivation.assignment
  rw [Expresses, scanned]
  refine ⟨rfl, used, tree, after, rfl, run, position, rest, fun fuel scope machine enough => ?_⟩
  obtain ⟨fuel, rfl⟩ := Nat.exists_eq_add_of_le' enough
  exact runs fuel scope machine

namespace Number.Writes

variable {literal : List Char} {decimal : Decimal}

/-- A written decimal is one piece. -/
theorem split_literal (writes : Writes literal decimal) :
    Piece.split literal = [.lexeme .number literal] := by
  have alone : Piece.split (literal ++ []) = .lexeme .number literal :: Piece.split [] :=
    Piece.split_lexeme writes.denotes (by simp [AtSpace])
  rwa [List.append_nil, Piece.split] at alone

/-- The minus sign and the first digit make up no symbol. -/
theorem split_negated (writes : Writes literal decimal) :
    Piece.split ('-' :: literal) = [.lexeme (.symbol .minus) ['-'], .lexeme .number literal] := by
  obtain ⟨first, rest, rfl, digit⟩ := writes.starts
  have apart : Symbol.pair? '-' first = none := by
    unfold Symbol.pair?
    split <;> simp_all
  have cut : Piece.cut '-' (first :: rest) = (.lexeme (.symbol .minus) ['-'], first :: rest) := by
    simp [Piece.cut, Piece.isGap, Piece.isNameStart, Piece.cutSymbol, apart, Piece.cutSingle,
      Symbol.single?]
  rw [Piece.split, cut, writes.split_literal]

/-- A literal at the end of the first line is followed by the layout only. -/
theorem arrange_literal (writes : Writes literal decimal) (last : Option Kind) :
    Margin.arrange ⟨1, 0, last⟩ [.lexeme .number literal] =
      ⟨.ofText .number literal 1 :: closing, []⟩ := by
  have single : '\n' ∉ literal := fun member => absurd (writes.chars _ member) (by decide)
  have line : Margin.lineAfter ⟨1, 0, last⟩ literal = 1 := by
    rw [Margin.lineAfter, List.count_eq_zero_of_not_mem single]
  change Scan.mk (.ofText .number literal 1 ::
    Margin.finish ⟨Margin.lineAfter ⟨1, 0, last⟩ literal, 0, some .number⟩) [] = _
  rw [line]
  rfl

/-- The token of the literal derives its value. -/
theorem primary (writes : Writes literal decimal) (line : Nat) :
    Grammar.Primary [.ofText .number literal line]
      (.constant (.number (Float.ofBits (UInt64.ofNat decimal.toBits))) line) := by
  have value : Constant.ofToken? (.ofText .number literal line) =
      some (.number (Float.ofBits (UInt64.ofNat decimal.toBits))) := by
    rw [Constant.ofToken?, Token.ofText, ← writes.denotes.literal_eq]
    rfl
  exact .literal value

/-- A written decimal expresses the number nearest to it. -/
theorem expresses (writes : Writes literal decimal) :
    Expresses (String.ofList literal)
      (.number (Float.ofBits (UInt64.ofNat decimal.toBits))) := by
  have scanned : scan (String.ofList literal) = ⟨[.ofText .number literal 1] ++ closing, []⟩ := by
    rw [scan, String.toList_ofList, writes.split_literal, scanPieces, Margin.measure_lexeme]
    exact writes.arrange_literal none
  exact expresses_of_unary scanned (.call (.primary (writes.primary 1))) fun _ _ _ => rfl

/-- A written decimal behind a minus sign expresses the negated number. -/
theorem expresses_negated (writes : Writes literal decimal) :
    Expresses (String.ofList ('-' :: literal))
      (.number (-Float.ofBits (UInt64.ofNat decimal.toBits))) := by
  have scanned : scan (String.ofList ('-' :: literal)) =
      ⟨[.ofText (.symbol .minus) ['-'] 1, .ofText .number literal 1] ++ closing, []⟩ := by
    rw [scan, String.toList_ofList, writes.split_negated, scanPieces, Margin.measure_lexeme]
    change Scan.ofTokens _ ++ Margin.arrange ⟨1, 0, _⟩ [.lexeme .number literal] = _
    rw [writes.arrange_literal]
    rfl
  exact expresses_of_unary scanned (.operator rfl (.call (.primary (writes.primary 1))))
    fun _ _ _ => rfl

end Number.Writes

end Script

/-- A finite number is printed as an expression for exactly this number, whatever its sign and its
size. -/
theorem display_expresses {number : Float} (finite : number.isFinite = true) :
    Expresses (Value.number number).display (.number number) := by
  obtain ⟨literal, decimal, writes, ⟨text, rfl⟩ | ⟨text, rfl⟩⟩ := Number.text_printed finite
  · rw [Value.display, text]
    exact writes.expresses
  · rw [Value.display, text]
    exact writes.expresses_negated

/-- The sign of a zero is printed and comes back. -/
theorem display_expresses_negative_zero :
    let number := Float.ofBits 0x8000000000000000
    number.isFinite = true ∧ (Value.number number).display = "-0" ∧
      Expresses "-0" (.number number) := by
  intro number
  have finite : number.isFinite = true := by decide
  have text : (Value.number number).display = "-0" := by decide
  refine ⟨finite, text, ?_⟩
  rw [← text]
  exact display_expresses finite

end Offside
